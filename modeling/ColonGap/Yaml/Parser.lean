import ColonGap.Yaml.Lexer
import ColonGap.Yaml.Node

/-!
# From tokens to nodes

A recursive descent over the tokens of the first document. What follows that document is not
read, apart from the tokens that the lexer looks ahead.
-/

namespace ColonGap.Yaml

/-- The state of the parser. -/
structure ParserState where
  lexer : Lexer
  /-- The handles of tags and what they stand for. -/
  handles : List (Bytes × Bytes)
  /-- The numbers of the anchors by name, latest first. -/
  names : List (Bytes × Nat)
  /-- The nodes of the anchors that are complete. -/
  anchors : List (Nat × Node)
  /-- The number of references so far. -/
  references : Nat
deriving Inhabited

/-- A step of the parser. -/
abbrev Parse := StateT ParserState (Except Fault)

namespace Parse

/-- Run the lexer. -/
def lex {α : Type} (step : Lex α) : Parse α := do
  let s ← get
  let (a, lexer) ← (step.run s.lexer : Except Fault (α × Lexer))
  set { s with lexer := lexer }
  return a

/-- The next token. -/
def peek : Parse Token :=
  lex Lex.peekToken

/-- Take the next token. -/
def skip : Parse Unit :=
  lex Lex.skipToken

/-- A problem at a token inside a collection. -/
def fail {α : Type} (problem : Problem) (around : Option Mark) (place : Mark) : Parse α :=
  throw (.node problem around place)

/-! ### Nodes and their properties -/

/-- An empty scalar, which is null. -/
def emptyScalar (mark : Mark) : Node :=
  .scalar (mark.line + 1) nullTag false []

/-- The anchor and the tag of a node, and where the node starts. -/
structure Properties where
  start : Mark
  anchor : Option Bytes
  tag : Option (Bytes × Bytes × Mark)

/-- Take an anchor, if there is one. -/
def takeAnchor : Parse (Option Bytes) := do
  match (← peek).kind with
  | .anchor name =>
    skip
    return some name
  | _ => return none

/-- Take a tag, if there is one. -/
def takeTag : Parse (Option (Bytes × Bytes × Mark)) := do
  let token ← peek
  match token.kind with
  | .tag handle suffix =>
    skip
    return some (handle, suffix, token.start)
  | _ => return none

/-- Take the anchor and the tag of a node, in either order. -/
def properties : Parse Properties := do
  let start := (← peek).start
  match ← takeAnchor with
  | some name => return ⟨start, some name, ← takeTag⟩
  | none =>
    match ← takeTag with
    | some tag => return ⟨start, ← takeAnchor, some tag⟩
    | none => return ⟨start, none, none⟩

/-- The tag that a handle and a suffix stand for. -/
def resolveTag (start : Mark) : Option (Bytes × Bytes × Mark) → Parse Bytes
  | none => return []
  | some (handle, suffix, mark) => do
    if handle.isEmpty then return suffix
    let tag := match (← get).handles.lookup handle with
      | some replacement => replacement ++ suffix
      | none => []
    if tag.isEmpty then fail .unknownTagHandle (some start) mark
    return tag

/-- The tag of a collection. -/
def collectionTag (own tag : Bytes) : Bytes :=
  if tag.isEmpty || tag == utf8 "!" then own else shortTag tag

/-- The tag of a scalar: the given one, or the one that its text has by itself. -/
def scalarTag (tag text : Bytes) (style : ScalarStyle) : Bytes :=
  if !(tag.isEmpty || tag == utf8 "!") then shortTag tag
  else if style != .plain then textTag
  else if text == utf8 "<<" then mergeTag
  else (Scalar.plainValue [] text).1

/-- Start a node with an anchor. -/
def openAnchor : Option Bytes → Parse (Option Nat)
  | none => return none
  | some name => do
    let number := (← get).names.length
    modify fun s ↦ { s with names := (name, number) :: s.names }
    return some number

/-- Complete the node of an anchor. -/
def closeAnchor (number : Option Nat) (node : Node) : Parse Node := do
  match number with
  | some n => modify fun s ↦ { s with anchors := (n, node) :: s.anchors }
  | none => pure ()
  return node

/-- The node of a reference. -/
def reference (token : Token) (name : Bytes) : Parse Node := do
  skip
  let s ← get
  match s.names.lookup name with
  | none => throw (.unknownAnchor name)
  | some number =>
    set { s with references := s.references + 1 }
    return .reference (token.start.line + 1) name s.references number

/-! ### Collections -/

/-- The entries of block sequences. `node` parses one; `closed` holds of the tokens before which
an entry is empty. -/
def blockItems (node : Parse Node) (closed : TokenKind → Bool) : Parse (Option Node) := do
  let token ← peek
  if token.kind == .blockEntry then
    skip
    let next ← peek
    if closed next.kind then return some (emptyScalar token.stop)
    return some (← node)
  return none

/-- Whether an entry of a block sequence is empty before a token. -/
def endsEntry (kind : TokenKind) : Bool :=
  kind == .blockEntry || kind == .blockEnd

/-- Whether an entry of a sequence that is not indented is empty before a token. -/
def endsIndentlessEntry (kind : TokenKind) : Bool :=
  kind == .blockEntry || kind == .key || kind == .value || kind == .blockEnd

/-- Whether a key or value of a block mapping is empty before a token. -/
def endsBlockPart (kind : TokenKind) : Bool :=
  kind == .key || kind == .value || kind == .blockEnd

/-- Whether the part of a flow collection that ends with `close` is empty before a token. -/
def endsFlowPart (close kind : TokenKind) : Bool :=
  kind == .flowEntry || kind == close

/-- The items of a block sequence that starts at a mark. -/
def blockSequence (node : Parse Node) (start : Mark) : (fuel : Nat) → Parse (List Node)
  | 0 => return []
  | fuel + 1 => do
    match ← blockItems node endsEntry with
    | some item => return item :: (← blockSequence node start fuel)
    | none =>
      let token ← peek
      if token.kind == .blockEnd then
        skip
        return []
      fail .missingDash (some start) token.start

/-- The items of a sequence that is not indented. -/
def indentlessSequence (node : Parse Node) : (fuel : Nat) → Parse (List Node)
  | 0 => return []
  | fuel + 1 => do
    match ← blockItems node endsIndentlessEntry with
    | some item => return item :: (← indentlessSequence node fuel)
    | none => return []

/-- The value of a block mapping behind a key. -/
def blockValue (node : Parse Node) : Parse Node := do
  let token ← peek
  if token.kind == .value then
    skip
    if endsBlockPart (← peek).kind then return emptyScalar token.stop
    node
  else return emptyScalar token.start

/-- The entries of a block mapping that starts at a mark. -/
def blockMapping (node : Parse Node) (start : Mark) : (fuel : Nat) → Parse (List (Node × Node))
  | 0 => return []
  | fuel + 1 => do
    let token ← peek
    if token.kind == .key then
      skip
      let key ← if endsBlockPart (← peek).kind then pure (emptyScalar token.stop) else node
      let value ← blockValue node
      return (key, value) :: (← blockMapping node start fuel)
    else if token.kind == .blockEnd then
      skip
      return []
    else fail .missingKey (some start) token.start

/-- The value behind a key in a flow collection that ends with `close`. -/
def flowValue (node : Parse Node) (close : TokenKind) : Parse Node := do
  let token ← peek
  if token.kind == .value then
    skip
    let next ← peek
    if endsFlowPart close next.kind then
      -- a value in a sequence stands at its colon, one in a mapping behind it
      return emptyScalar (if close == .flowSequenceEnd then token.start else next.start)
    node
  else return emptyScalar token.start

/-- Take the comma before an entry that is not the first one. -/
def flowComma (first : Bool) (problem : Problem) (start : Mark) : Parse Unit := do
  if !first then
    let token ← peek
    if token.kind == .flowEntry then skip else fail problem (some start) token.start

/-- The key of a single entry in a flow sequence. -/
def flowEntryKey (node : Parse Node) : Parse Node := do
  let token ← peek
  if token.kind == .value || endsFlowPart .flowSequenceEnd token.kind then
    skip
    return emptyScalar token.stop
  node

/-- The items of a flow sequence that starts at a mark. -/
def flowSequence (node : Parse Node) (start : Mark) : (fuel : Nat) → (first : Bool) →
    Parse (List Node)
  | 0, _ => return []
  | fuel + 1, first => do
    if (← peek).kind == .flowSequenceEnd then
      skip
      return []
    flowComma first .missingSequenceEnd start
    let token ← peek
    if token.kind == .key then
      skip
      let key ← flowEntryKey node
      let value ← flowValue node .flowSequenceEnd
      discard peek
      let item := Node.mapping (token.start.line + 1) mappingTag [(key, value)]
      return item :: (← flowSequence node start fuel false)
    else if token.kind == .flowSequenceEnd then
      skip
      return []
    else
      let item ← node
      return item :: (← flowSequence node start fuel false)

/-- The entries of a flow mapping that starts at a mark. -/
def flowMapping (node : Parse Node) (start : Mark) : (fuel : Nat) → (first : Bool) →
    Parse (List (Node × Node))
  | 0, _ => return []
  | fuel + 1, first => do
    if (← peek).kind == .flowMappingEnd then
      skip
      return []
    flowComma first .missingMappingEnd start
    let token ← peek
    if token.kind == .key then
      skip
      let next ← peek
      let key ← if next.kind == .value || endsFlowPart .flowMappingEnd next.kind then
          pure (emptyScalar next.start)
        else node
      let value ← flowValue node .flowMappingEnd
      return (key, value) :: (← flowMapping node start fuel false)
    else if token.kind == .flowMappingEnd then
      skip
      return []
    else
      let key ← node
      let next ← peek
      return (key, emptyScalar next.start) :: (← flowMapping node start fuel false)

/-- A node. `block` allows block collections, and `indentless` a sequence that is not
indented. -/
def node : (fuel : Nat) → (block indentless : Bool) → Parse Node
  | 0, _, _ => return emptyScalar ⟨0, 0, 0⟩
  | fuel + 1, block, indentless => do
    let token ← peek
    match token.kind with
    | .reference name => reference token name
    | _ =>
      let p ← properties
      let token ← peek
      let tag ← resolveTag p.start p.tag
      let line := p.start.line + 1
      let sequence := fun (items : Parse (List Node)) ↦ do
        let anchor ← openAnchor p.anchor
        closeAnchor anchor (.sequence line (collectionTag sequenceTag tag) (← items))
      let mapping := fun (entries : Parse (List (Node × Node))) ↦ do
        let anchor ← openAnchor p.anchor
        closeAnchor anchor (.mapping line (collectionTag mappingTag tag) (← entries))
      match token.kind with
      | .scalar text style =>
        let anchor ← openAnchor p.anchor
        skip
        closeAnchor anchor (.scalar line (scalarTag tag text style) (style != .plain) text)
      | .flowSequenceStart =>
        sequence do
          skip
          flowSequence (node fuel false false) token.start fuel true
      | .flowMappingStart =>
        mapping do
          skip
          flowMapping (node fuel false false) token.start fuel true
      | kind =>
        if indentless && kind == .blockEntry then
          sequence (indentlessSequence (node fuel true false) fuel)
        else if block && kind == .blockSequenceStart then
          sequence do
            skip
            blockSequence (node fuel true false) token.start fuel
        else if block && kind == .blockMappingStart then
          mapping do
            skip
            blockMapping (node fuel true true) token.start fuel
        else if p.anchor.isSome || !tag.isEmpty then
          let anchor ← openAnchor p.anchor
          closeAnchor anchor (.scalar line (scalarTag tag [] .plain) false [])
        else fail .missingContent (some p.start) token.start

/-! ### Documents -/

/-- The handles that every document has. -/
def standardHandles : List (Bytes × Bytes) :=
  [(utf8 "!", utf8 "!"), (utf8 "!!", standardTags)]

/-- Take the directives before a document. -/
def directives : (fuel : Nat) → (versioned : Bool) → Parse Unit
  | 0, _ => pure ()
  | fuel + 1, versioned => do
    let token ← peek
    match token.kind with
    | .version major minor =>
      if versioned then fail .repeatedVersion none token.start
      if major != 1 || minor != 1 then fail .unsupportedVersion none token.start
      skip
      directives fuel true
    | .tagHandle handle replacement =>
      if ((← get).handles.lookup handle).isSome then fail .repeatedTagHandle none token.start
      modify fun s ↦ { s with handles := s.handles ++ [(handle, replacement)] }
      skip
      directives fuel versioned
    | _ => modify fun s ↦ { s with handles := s.handles ++ standardHandles }

/-- Whether a token starts or ends a document or is a directive. -/
def isDocumentEdge : TokenKind → Bool
  | .version .. | .tagHandle .. | .documentStart | .documentEnd | .streamEnd => true
  | _ => false

/-- The content of a document behind `---`. -/
def explicitContent (fuel : Nat) : Parse Node := do
  let token ← peek
  if isDocumentEdge token.kind then return emptyScalar token.start
  node fuel true false

/-- The end of a document. -/
def documentEnd : Parse Unit := do
  if (← peek).kind == .documentEnd then skip

/-- The first document. -/
def document (fuel : Nat) : Parse (Option Node) := do
  discard peek
  skip
  let token ← peek
  if token.kind == .streamEnd then return none
  if isDocumentEdge token.kind && token.kind != .documentEnd then
    directives fuel false
    let token ← peek
    if token.kind != .documentStart then fail .missingDocumentStart none token.start
    skip
    let root ← explicitContent fuel
    documentEnd
    return some root
  directives fuel false
  let root ← node fuel true false
  documentEnd
  return some root

end Parse

/-- Parse the first document of a text. An empty text is a single empty line. -/
def parse (text : Bytes) : Except Fault Document := do
  let text := if text.isEmpty then [10] else text
  let fuel := 8 * text.length + 32
  let start : ParserState :=
    { lexer := Lexer.ofDocument text, handles := [], names := [], anchors := [], references := 0 }
  let (root, state) ← ((Parse.document fuel).run start : Except Fault (Option Node × ParserState))
  return ⟨root, state.anchors⟩

end ColonGap.Yaml

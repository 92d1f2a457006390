import ColonGap.Yaml.Decode.Basic
import ColonGap.Yaml.Decode.Key

/-!
# Decoding mappings

A mapping is decoded entry by entry into a value that grows. It may merge other mappings, whose
entries come last and count only if neither the mapping itself nor a mapping merged before has
their key.
-/

namespace ColonGap.Yaml

namespace Decode

/-- What the entries of a mapping are decoded into. -/
structure Target (σ : Type) where
  /-- Decode a key. -/
  key : Node → Decode (Option OptionValue)
  /-- If only certain texts are keys, the type that has these fields. -/
  fields : Option (Bytes × List Bytes)
  /-- Decode the value of a key and put it into the whole. -/
  put : OptionValue → Node → σ → Decode σ

variable {σ : Type}

/-- Decode a key that is a text. -/
def textKey (node : Node) : Decode (Option OptionValue) := do
  return (← text node).map .text

/-- Take a key if mappings are merged and it is free. A key is always free otherwise, and then there
is no list of those taken. -/
def reserve (key : OptionValue) :
    (taken : Option (List OptionValue)) → Decode (Option (Option (List OptionValue)))
  | none => return some none
  | some taken => do
    if Key.isCollection key then throw (.mergedCollectionKey key)
    else return if taken.any (Key.same · key) then none else some (some (key :: taken))

/-- Whether a target has a field of a key. -/
def Target.knows (t : Target σ) (key : OptionValue) : Bool :=
  match t.fields, key with
  | some (_, names), .text s => names.contains s
  | some _, _ => false
  | none, _ => true

/-- What is wrong with a field that is set already, under another spelling of its key; `done` are
the fields set so far. -/
def Target.repeated? (t : Target σ) (line : Nat) (key : OptionValue) (done : List OptionValue) :
    Option Mismatch :=
  match t.fields with
  | some (type, _) =>
    if done.any (Key.same · key) then some (.repeatedField line key.render type) else none
  | none => none

/-- Put an entry into the whole, unless it is a repeated field, which is noted. -/
def putEntry (t : Target σ) (line : Nat) (key : OptionValue) (value : Node)
    (done : List OptionValue) (whole : σ) : Decode (List OptionValue × σ) := do
  if !t.knows key then return (done, whole)
  else
    match t.repeated? line key done with
    | some mismatch =>
      note mismatch
      return (done, whole)
    | none =>
      let whole ← t.put key value whole
      return (key :: done, whole)

/-- How far decoding the entries of mappings is: the keys taken by mappings that are being merged,
the keys of this mapping that are done, and the whole. -/
abbrev Progress (σ : Type) := Option (List OptionValue) × List OptionValue × σ

/-- Decode the value of a key, if the key is free. -/
def enterKey (t : Target σ) (line : Nat) (key : OptionValue) (value : Node) :
    Progress σ → Decode (Progress σ)
  | (taken, done, whole) => do
    match ← reserve key taken with
    | none => return (taken, done, whole)
    | some taken =>
      let (done, whole) ← putEntry t line key value done whole
      return (taken, done, whole)

/-- Decode an entry. -/
def enter (t : Target σ) (entry : Node × Node) (progress : Progress σ) : Decode (Progress σ) := do
  if entry.1.isMerge then return progress
  else
    match ← t.key entry.1 with
    | none => return progress
    | some key => enterKey t entry.1.line key entry.2 progress

/-- Decode entries one by one. -/
def entriesFrom (t : Target σ) : List (Node × Node) → Progress σ → Decode (Progress σ)
  | [], progress => return progress
  | entry :: entries, progress => do
    let progress ← enter t entry progress
    entriesFrom t entries progress

/-- Decode the entries of a mapping itself. -/
def ownEntries (t : Target σ) (entries : List (Node × Node)) (whole : σ) : Decode σ := do
  let taken := (← get).merged
  modify fun s ↦ { s with merged := none }
  let (taken, _, whole) ← entriesFrom t entries (taken, [], whole)
  modify fun s ↦ { s with merged := taken }
  return whole

/-- The keys of a mapping that merges others. `anyKey` decodes a key to whatever it is. -/
def takenKeys (anyKey : Node → Decode (Option OptionValue)) :
    List (Node × Node) → List OptionValue → Decode (List OptionValue)
  | [], taken => return taken
  | (key, _) :: entries, taken => do
    match ← anyKey key with
    | none => takenKeys anyKey entries taken
    | some v =>
      if Key.isCollection v then throw (.mergedCollectionKey v)
      else takenKeys anyKey entries (v :: taken)

/-- Whether a node is a mapping or refers to one. -/
def isMergeSource (anchors : List (Nat × Node)) (node : Node) : Bool :=
  match node.behind anchors with
  | .mapping .. => true
  | _ => false

/-- Decode mappings that are merged, one after another. -/
def mergeAll (decode : Node → σ → Decode σ) : List Node → σ → Decode σ
  | [], whole => return whole
  | node :: nodes, whole => do
    if isMergeSource (← get).anchors node then
      let whole ← decode node whole
      mergeAll decode nodes whole
    else throw .wrongMerge

/-- The value of the entry that merges other mappings; the last such entry counts. -/
def mergeEntry? (entries : List (Node × Node)) : Option Node :=
  (entries.reverse.find? fun (key, _) ↦ key.isMerge).map (·.2)

/-- The nodes of the mappings that the value of such an entry names. -/
def mergeNodes : Node → List Node
  | .sequence _ _ items => items
  | node => [node]

/-- Merge the mappings that an entry names. The keys that are taken are those of the outermost
mapping and of those merged into it so far. -/
def merge (anyKey : Node → Decode (Option OptionValue)) (decode : Node → σ → Decode σ)
    (entries : List (Node × Node)) (source : Node) (whole : σ) : Decode σ := do
  if (← get).merged.isNone then
    let taken ← takenKeys anyKey entries []
    modify fun s ↦ { s with merged := some taken }
    let whole ← mergeAll decode (mergeNodes source) whole
    modify fun s ↦ { s with merged := none }
    return whole
  else mergeAll decode (mergeNodes source) whole

/-- Merge the mappings that a mapping with these entries merges, if any. -/
def mergeOthers (anyKey : Node → Decode (Option OptionValue)) (decode : Node → σ → Decode σ)
    (entries : List (Node × Node)) (whole : σ) : Decode σ :=
  match mergeEntry? entries with
  | none => return whole
  | some source => merge anyKey decode entries source whole

/-- Decode a mapping that is merged, by its entries. -/
def mergedMapping (decode : List (Node × Node) → σ → Decode σ) (node : Node) (whole : σ) :
    Decode σ :=
  visit (fun node ↦ do
    match node with
    | .mapping _ _ entries => if ← keysDiffer entries then decode entries whole else return whole
    | _ => return whole) node

/-- Decode the entries of a mapping whose keys differ, and of the mappings it merges, which are
nested less than `fuel` deep. `merged` is the target of the entries that are merged. -/
def mappingEntries (anyKey : Node → Decode (Option OptionValue)) (merged : Target σ) :
    (fuel : Nat) → Target σ → List (Node × Node) → σ → Decode σ
  | 0, _, _, _ => throw .tooManyAliases
  | fuel + 1, t, entries, whole => do
    let whole ← ownEntries t entries whole
    mergeOthers anyKey (mergedMapping (mappingEntries anyKey merged fuel merged)) entries whole

/-! ### Any value -/

/-- Whether all keys of a mapping are texts or merge other mappings. -/
def hasTextKeys (anchors : List (Nat × Node)) (entries : List (Node × Node)) : Bool :=
  entries.all fun (key, _) ↦
    let tag := Document.tagOf anchors key
    tag == textTag || tag == mergeTag

/-- The fields of a record as a target; `any` decodes their values. -/
def recordTarget (any : Node → Decode (Option OptionValue)) :
    Target (Entries OptionValue) where
  key := textKey
  fields := none
  put := fun key value fields ↦ do
    match key, ← any value with
    | .text name, some v => return fields.put name v
    | _, _ => return fields

/-- The entries of a mapping with any keys as a target; `any` decodes keys and values. -/
def entryTarget (any : Node → Decode (Option OptionValue)) :
    Target (List (OptionValue × OptionValue)) where
  key := any
  fields := none
  put := fun key value entries ↦ do
    if Key.isCollection key then throw (.collectionKey key)
    else
      match ← any value with
      | some v => return Key.put key v entries
      | none => return entries

/-- Decode a node to whatever value it is; collections are nested less than `fuel` deep. -/
def any : (fuel : Nat) → Node → Decode (Option OptionValue)
  | 0, _ => throw .tooManyAliases
  | fuel + 1, node =>
    visit (fun node ↦ do
      match node with
      | .scalar _ tag literal text => return some (← scalarValue tag literal text).2
      | .sequence _ _ items => return some (.list ((← items.mapM (any fuel)).filterMap id))
      | .mapping _ _ entries =>
        if ← keysDiffer entries then
          if hasTextKeys (← get).anchors entries then
            let t := recordTarget (any fuel)
            let fields ← mappingEntries (any fuel) t fuel t entries []
            return some (.record fields)
          else
            let t := entryTarget (any fuel)
            let entries ← mappingEntries (any fuel) t fuel t entries []
            return some (.mapping entries)
        else return none
      | .reference .. => return none) node

/-! ### Structures -/

/-- Decode a mapping into a structure with fields. Null leaves the structure as it is; the second
result says whether there was a mapping. -/
def fields (fuel : Nat) (t : Target σ) (type : Bytes) (node : Node) (whole : σ) :
    Decode (σ × Bool) :=
  visit (fun node ↦ do
    match node with
    | .mapping _ _ entries =>
      if ← keysDiffer entries then
        return (← mappingEntries (any fuel) t fuel t entries whole, true)
      else return (whole, false)
    | .scalar _ tag literal text =>
      match (← scalarValue tag literal text).2 with
      | .null => return (whole, false)
      | _ =>
        misfit type node
        return (whole, false)
    | node =>
      misfit type node
      return (whole, false)) node

end Decode

/-- The state in which the root of a document is visited. -/
def Decoding.atRoot (document : Document) : Decoding where
  anchors := document.anchors
  mismatches := []
  visits := 1
  referenced := 0
  following := []
  merged := none

/-- Decode the root of a document into a value that starts as `start`. Nothing is decoded if
anything does not fit. -/
def decodeDocument {σ : Type} (document : Document) (decode : Node → σ → Decode σ) (start : σ) :
    Except Fault σ :=
  match document.root with
  | none => .ok start
  | some root => do
    let (value, state) ← (decode root start).run (.atRoot document)
    if state.mismatches.isEmpty then return value
    else throw (.mismatches state.mismatches)

end ColonGap.Yaml

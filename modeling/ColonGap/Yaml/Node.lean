import ColonGap.Yaml.Scalar

/-!
# Nodes of a YAML document

A document is a tree of scalars, sequences and mappings. A reference stands for the node that has
its anchor. As that node may contain the reference itself, a reference only holds the number of
the anchor, and a table gives the node of each anchor.
-/

namespace ColonGap.Yaml

/-- A node. Lines are counted from one. -/
inductive Node where
  /-- A scalar; `literal` says that it was quoted or a block. -/
  | scalar (line : Nat) (tag : Bytes) (literal : Bool) (text : Bytes)
  | sequence (line : Nat) (tag : Bytes) (items : List Node)
  | mapping (line : Nat) (tag : Bytes) (entries : List (Node × Node))
  /-- The reference number `id` of the document, to an anchor by its name and its number. -/
  | reference (line : Nat) (name : Bytes) (id : Nat) (anchor : Nat)
deriving Repr, Inhabited

/-- A document: its root, if it is not empty, and the nodes of its anchors. -/
structure Document where
  root : Option Node
  anchors : List (Nat × Node)
deriving Inhabited

namespace Node

/-- The line of a node. -/
def line : Node → Nat
  | scalar line .. => line
  | sequence line .. => line
  | mapping line .. => line
  | reference line .. => line

/-- The text of a scalar or the name of a reference; a collection has none. -/
def text : Node → Bytes
  | scalar _ _ _ text => text
  | reference _ name .. => name
  | sequence .. => []
  | mapping .. => []

/-- Whether two nodes are of one kind and have one text, so that they cannot both be keys of one
mapping. -/
def sameKey : Node → Node → Bool
  | scalar _ _ _ s, scalar _ _ _ t => s == t
  | sequence .., sequence .. => true
  | mapping .., mapping .. => true
  | reference _ s .., reference _ t .. => s == t
  | _, _ => false

/-- Whether a scalar is a text whatever it looks like. -/
def isLiteral (tag : Bytes) (literal : Bool) : Bool :=
  shortTag tag == textTag || ((tag.isEmpty || tag == utf8 "!") && literal)

/-- Whether a node is the key that merges other mappings. -/
def isMerge : Node → Bool
  | scalar _ tag _ text =>
    text == utf8 "<<" && (tag.isEmpty || tag == utf8 "!" || shortTag tag == mergeTag)
  | _ => false

/-- The short tag of a node that is no reference. -/
def ownTag : Node → Bytes
  | scalar _ tag literal _ => if isLiteral tag literal then textTag else shortTag tag
  | sequence _ tag _ => shortTag tag
  | mapping _ tag _ => shortTag tag
  | reference .. => []

end Node

/-- The node of an anchor. -/
def Document.anchor? (anchors : List (Nat × Node)) (number : Nat) : Option Node :=
  anchors.lookup number

/-- What a node stands for: a reference stands for the node of its anchor, which is no reference
itself. -/
def Node.behind (anchors : List (Nat × Node)) : Node → Node
  | reference _ _ _ number =>
    match Document.anchor? anchors number with
    | none | some (reference ..) => default
    | some node => node
  | node => node

namespace Document

/-- The short tag of a node; a reference has that of its node. -/
def tagOf (anchors : List (Nat × Node)) (node : Node) : Bytes :=
  (node.behind anchors).ownTag

end Document

end ColonGap.Yaml

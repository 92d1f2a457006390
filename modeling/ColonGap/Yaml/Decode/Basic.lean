import ColonGap.KeyedList
import ColonGap.Yaml.Parser

/-!
# Decoding nodes

Decoding turns nodes into values of a given type. Where a node does not fit, this is noted and
decoding goes on, so that all such places are reported at once; a few faults end it.

A decoder tells besides the value whether there was one: a null leaves most things as they are.
References are followed, but not into themselves, and not if nearly all of the work would go into
them.
-/

namespace ColonGap.Yaml

/-- The state of decoding. -/
structure Decoding where
  anchors : List (Nat × Node)
  /-- What did not fit so far, in order. -/
  mismatches : List Mismatch
  /-- The number of nodes visited, and of those that were visited inside references. -/
  visits : Nat
  referenced : Nat
  /-- The references that are being followed, innermost first. -/
  following : List Nat
  /-- The keys that are taken while mappings are merged. -/
  merged : Option (List OptionValue)

/-- A step of decoding. -/
abbrev Decode := StateT Decoding (Except Fault)

namespace Decode

/-- Note something that does not fit. -/
def note (mismatch : Mismatch) : Decode Unit :=
  modify fun s ↦ { s with mismatches := s.mismatches ++ [mismatch] }

/-- Whether too much of the work goes into references: more than 99 of 100 visits in documents of
up to 400000 visits, and more than fewer and fewer of them, down to 10 of 100, in larger ones. -/
def isExcessive (visits referenced : Nat) : Bool :=
  100 < referenced && 1000 < visits
    && (if visits ≤ 400000 then 99 * visits < 100 * referenced
      else if 4000000 ≤ visits then visits < 10 * referenced
      else visits * (99 * 3600000 - 89 * (visits - 400000)) < 100 * 3600000 * referenced)

/-- Count the visit of a node. -/
def countVisit : Decode Unit := do
  let s ← get
  let visits := s.visits + 1
  let referenced := s.referenced + (if s.following.isEmpty then 0 else 1)
  if isExcessive visits referenced then throw .tooManyAliases
  else set { s with visits := visits, referenced := referenced }

/-- Decode a node by what it is behind all references. -/
def visit {α : Type} (decode : Node → Decode α) (node : Node) : Decode α := do
  countVisit
  match node with
  | .reference _ name id _ =>
    let s ← get
    if s.following.contains id then throw (.selfReference name)
    else
      set { s with following := id :: s.following }
      countVisit
      let a ← decode (node.behind s.anchors)
      modify fun t ↦ { t with following := s.following }
      return a
  | node => decode node

/-! ### Scalars -/

/-- The value of a base 64 digit. -/
def base64Digit? (b : UInt8) : Option Nat :=
  if 65 ≤ b && b ≤ 90 then some (b.toNat - 65)
  else if 97 ≤ b && b ≤ 122 then some (b.toNat - 71)
  else if 48 ≤ b && b ≤ 57 then some (b.toNat + 4)
  else if b == 43 then some 62
  else if b == 47 then some 63
  else none

/-- The bytes of groups of four base 64 digits, of which the last may be filled up. -/
def base64Groups? : Bytes → Option Bytes
  | [] => some []
  | [a, b, 61, 61] => do
    let n := (← base64Digit? a) * 64 + (← base64Digit? b)
    return [(n / 16).toUInt8]
  | [a, b, c, 61] => do
    let n := ((← base64Digit? a) * 64 + (← base64Digit? b)) * 64 + (← base64Digit? c)
    return [(n / 1024).toUInt8, (n / 4 % 256).toUInt8]
  | a :: b :: c :: d :: rest => do
    let n := (((← base64Digit? a) * 64 + (← base64Digit? b)) * 64 + (← base64Digit? c)) * 64
      + (← base64Digit? d)
    return [(n / 65536).toUInt8, (n / 256 % 256).toUInt8, (n % 256).toUInt8]
      ++ (← base64Groups? rest)
  | _ => none

/-- The bytes of a text in base 64, in which line ends do not count. -/
def base64? (s : Bytes) : Option Bytes :=
  base64Groups? (s.filter fun b ↦ b != 10 && b != 13)

/-- The value of a scalar and its tag. -/
def scalarValue (tag : Bytes) (literal : Bool) (text : Bytes) :
    Except Fault (Bytes × OptionValue) :=
  if Node.isLiteral tag literal then .ok (textTag, .text text)
  else
    match Scalar.resolve tag text with
    | .error e => .error e
    | .ok (found, v) =>
      if found == binaryTag then
        match base64? text with
        | some bytes => .ok (found, .text bytes)
        | none => .error .wrongBase64
      else .ok (found, v)

/-- Note that a node does not fit a type. -/
def misfit (type : Bytes) : Node → Decode Unit
  | .scalar line tag _ text => note (.shape line tag text type)
  | .sequence line tag _ => note (.shape line tag [] type)
  | .mapping line tag _ => note (.shape line tag [] type)
  | .reference .. => pure ()

/-- The keys of a mapping that occur again behind the first entry. -/
def repeatedKeys (key : Node) (entries : List (Node × Node)) : List Mismatch :=
  entries.filterMap fun (other, _) ↦
    if key.sameKey other then some (.repeatedKey other.line other.text key.line) else none

/-- All repeated keys of a mapping. -/
def allRepeatedKeys : List (Node × Node) → List Mismatch
  | [] => []
  | (key, _) :: entries => repeatedKeys key entries ++ allRepeatedKeys entries

/-- Note repeated keys; whether there are none. -/
def keysDiffer (entries : List (Node × Node)) : Decode Bool := do
  let repeated := allRepeatedKeys entries
  repeated.forM note
  return repeated.isEmpty

/-- Note that a mapping does not fit a type, or else which of its keys are repeated. -/
def misfitMapping (type : Bytes) (node : Node) (entries : List (Node × Node)) : Decode Unit := do
  if ← keysDiffer entries then misfit type node

/-- Decode a node into a type of scalars. `accept` takes the value of a scalar and its text; null
gives no value. -/
def scalar {α : Type} (type : String) (accept : OptionValue → Bytes → Option α) :
    Node → Decode (Option α) :=
  visit fun node ↦ do
    match node with
    | .scalar _ tag literal text =>
      match (← scalarValue tag literal text).2 with
      | .null => return none
      | v =>
        match accept v text with
        | some a => return some a
        | none =>
          misfit (utf8 type) node
          return none
    | .mapping _ _ entries =>
      misfitMapping (utf8 type) node entries
      return none
    | node =>
      misfit (utf8 type) node
      return none

/-- Any scalar is a text, the one it is written with. -/
def textOf : OptionValue → Bytes → Option Bytes
  | .text s, _ => some s
  | _, written => some written

/-- Decode a text. -/
def text : Node → Decode (Option Bytes) :=
  scalar "string" textOf

/-- The whole part of a floating-point number, if it does not exceed the greatest 64-bit number;
one that is below the least gives the least. -/
def wholePart? (bits : Nat) : Option Int :=
  let magnitude := bits % Binary64.signBit
  let minus := Binary64.signBit ≤ bits
  if Binary64.infinity < magnitude then none
  else
    let limit : Int := 0x8000000000000000
    let n : Int :=
      if magnitude == Binary64.infinity then 2 * limit
      else
        let (m, q) := Binary64.decode magnitude
        let whole : Nat := if 0 ≤ q then m <<< q.toNat else m >>> (-q).toNat
        whole
    let n := if minus then -n else n
    if limit < n then none else if n == limit || n < -limit then some (-limit) else some n

/-- Which scalars are whole numbers: a floating-point number is cut. -/
def wholeOf : OptionValue → Bytes → Option Int
  | .int n, _ => some n
  | .float bits, _ => wholePart? bits
  | _, _ => none

/-- Decode a whole number. -/
def int : Node → Decode (Option Int) :=
  scalar "int" wholeOf

/-- Which scalars are truth values: there are some further words for them. -/
def truthOf : OptionValue → Bytes → Option Bool
  | .bool b, _ => some b
  | .text s, _ =>
    if ["y", "Y", "yes", "Yes", "YES", "on", "On", "ON"].any fun w ↦ utf8 w == s then some true
    else if ["n", "N", "no", "No", "NO", "off", "Off", "OFF"].any fun w ↦ utf8 w == s then some false
    else none
  | _, _ => none

/-- Decode a truth value. -/
def bool : Node → Decode (Option Bool) :=
  scalar "bool" truthOf

/-- Decode a list of texts. Null is the missing list, which differs from the empty one; a null in
the list is left out. -/
def texts : Node → Decode (Option (Option (List Bytes))) :=
  visit fun node ↦ do
    match node with
    | .sequence _ _ items => return some (some ((← items.mapM text).filterMap id))
    | .scalar _ tag literal text =>
      match (← scalarValue tag literal text).2 with
      | .null => return some none
      | _ =>
        misfit (utf8 "[]string") node
        return none
    | .mapping _ _ entries =>
      misfitMapping (utf8 "[]string") node entries
      return none
    | .reference .. => return none

end Decode

end ColonGap.Yaml

import ColonGap.Script.Occurrence
import ColonGap.Script.Parser.Basic

/-!
# Trees without their positions

Two scripts that differ in blanks have trees that differ in positions, and what they have in common
is a *view* of these trees: the tree without its spans, and with or without the contents of its
literals. A view may mark arrays, where what the parser does with a tree depends on more than the
tree.

Besides its view, what matters about a tree are its *entries*: the key of each `key: value` entry
and the start of its value. Re-reading a literal as a pattern keeps them.

## Shape decisions

* **Views are trees.** A view of a tree is a tree of the same type, so that what a tree looks like
  is read off its view by cases, and a tree without positions is a tree too.
* **The text of a regular expression is cut.** With flags, the recorded text of a regular
  expression reaches into the token behind it; a view keeps the part up to the flags.
-/

namespace ColonGap.Script

/-- How to look at a tree: which arrays to mark, and whether to keep the contents of literals. An
array is marked for its rest element, given with the span of the array. -/
structure View where
  mark : Span → Expr → Bool
  keeps : Bool

namespace View

/-- The span that stands for a mark. -/
def label (b : Bool) : Span :=
  ⟨none, b.toNat⟩

/-- The mark of an array with the given elements. -/
def markOf (v : View) (span : Span) : List (Option Expr) → Bool
  | [] => false
  | [some (.spread _ inner)] => v.mark span inner
  | _ :: elements => v.markOf span elements

/-- The mark of an array pattern with the given rest element. -/
def markOfRest (v : View) (span : Span) : Option Expr → Bool
  | none => false
  | some inner => v.mark span inner

/-- The contents of a literal, or nothing. -/
def content {α : Type} (v : View) (s : List α) : List α :=
  if v.keeps then s else []

/-- A stretch of template text, or an empty one. -/
def text (v : View) (t : TemplateText) : TemplateText :=
  if v.keeps then t else ⟨[], none⟩

end View

mutual

/-- The view of an expression. -/
def Expr.view (v : View) : Expr → Expr
  | .bad _ => .bad default
  | .identifier _ name => .identifier default name
  | .privateName _ name => .privateName default name
  | .this _ => .this default
  | .super _ => .super default
  | .null _ => .null default
  | .boolean _ value => .boolean default value
  | .number _ raw => .number default raw
  | .string _ raw value => .string default (v.content raw) (v.content value)
  | .regex _ raw pattern flags =>
    .regex default (v.content (if flags.isEmpty then raw else raw.take (2 + pattern.length)))
      (v.content pattern) (v.content flags)
  | .template _ tag texts substitutions =>
    .template default (view? v tag) (texts.map v.text) (viewList v substitutions)
  | .metaProperty _ name => .metaProperty default name
  | .array span elements => .array (View.label (v.markOf span elements)) (viewElements v elements)
  | .object _ properties => .object default (viewProperties v properties)
  | .arrayPattern span elements rest =>
    .arrayPattern (View.label (v.markOfRest span rest)) (viewElements v elements) (view? v rest)
  | .objectPattern _ properties rest =>
    .objectPattern default (viewProperties v properties) (view? v rest)
  | .spread _ inner => .spread default (inner.view v)
  | .unary _ operator operand => .unary default operator (operand.view v)
  | .postUpdate _ operator operand => .postUpdate default operator (operand.view v)
  | .binary _ operator left right => .binary default operator (left.view v) (right.view v)
  | .assignment _ operator left right => .assignment default operator (left.view v) (right.view v)
  | .conditional _ test consequent alternate =>
    .conditional default (test.view v) (consequent.view v) (alternate.view v)
  | .sequence _ items => .sequence default (viewList v items)
  | .call _ callee arguments => .call default (callee.view v) (viewList v arguments)
  | .construct _ callee arguments => .construct default (callee.view v) (viewList v arguments)
  | .member _ object name => .member default (object.view v) name
  | .privateMember _ object name => .privateMember default (object.view v) name
  | .index _ object key => .index default (object.view v) (key.view v)
  | .optional _ inner => .optional default (inner.view v)
  | .chain _ inner => .chain default (inner.view v)
  | .yield _ delegate argument => .yield default delegate (view? v argument)
  | .await _ argument => .await default (argument.view v)
  | .function body => .function (body.view v)
  | .arrow _ isAsync parameters body => .arrow default isAsync (parameters.view v) (body.view v)
  | .classExpr body => .classExpr (body.view v)

/-- The view of an expression that may be absent. -/
def view? (v : View) : Option Expr → Option Expr
  | none => none
  | some e => some (e.view v)

/-- The views of expressions. -/
def viewList (v : View) : List Expr → List Expr
  | [] => []
  | e :: items => e.view v :: viewList v items

/-- The views of the elements of an array. -/
def viewElements (v : View) : List (Option Expr) → List (Option Expr)
  | [] => []
  | e :: elements => view? v e :: viewElements v elements

/-- The view of an entry of an object. -/
def Property.view (v : View) : Property → Property
  | .short _ name initializer => .short default name (view? v initializer)
  | .keyed kind computed key value => .keyed kind computed (key.view v) (value.view v)
  | .spread inner => .spread (inner.view v)

/-- The views of the entries of an object. -/
def viewProperties (v : View) : List Property → List Property
  | [] => []
  | p :: properties => p.view v :: viewProperties v properties

/-- The view of a binding. -/
def Binding.view (v : View) : Binding → Binding
  | .mk target initializer => .mk (target.view v) (view? v initializer)

/-- The views of bindings. -/
def viewBindings (v : View) : List Binding → List Binding
  | [] => []
  | b :: bindings => b.view v :: viewBindings v bindings

/-- The view of formal parameters. -/
def Parameters.view (v : View) : Parameters → Parameters
  | .mk bindings rest => .mk (viewBindings v bindings) (view? v rest)

/-- The view of a function. -/
def Function.view (v : View) : Function → Function
  | .mk _ name isAsync isGenerator parameters body =>
    .mk default name isAsync isGenerator (parameters.view v) (viewStmts v body)

/-- The view of the body of an arrow function. -/
def ArrowBody.view (v : View) : ArrowBody → ArrowBody
  | .block body => .block (viewStmts v body)
  | .expression value => .expression (value.view v)

/-- The view of a class. -/
def Class.view (v : View) : Class → Class
  | .mk _ name superclass elements =>
    .mk default name (view? v superclass) (viewMembers v elements)

/-- The view of a class member. -/
def ClassElement.view (v : View) : ClassElement → ClassElement
  | .field isStatic computed key initializer =>
    .field isStatic computed (key.view v) (view? v initializer)
  | .method kind isStatic computed key body =>
    .method kind isStatic computed (key.view v) (body.view v)
  | .staticBlock body => .staticBlock (viewStmts v body)

/-- The views of class members. -/
def viewMembers (v : View) : List ClassElement → List ClassElement
  | [] => []
  | m :: members => m.view v :: viewMembers v members

/-- The view of a statement. -/
def Stmt.view (v : View) : Stmt → Stmt
  | .bad => .bad
  | .empty => .empty
  | .debugger => .debugger
  | .block body => .block (viewStmts v body)
  | .expression value => .expression (value.view v)
  | .declaration kind bindings => .declaration kind (viewBindings v bindings)
  | .function body => .function (body.view v)
  | .classDeclaration body => .classDeclaration (body.view v)
  | .branch test consequent alternate =>
    .branch (test.view v) (consequent.view v) (viewStmt? v alternate)
  | .doWhile body test => .doWhile (body.view v) (test.view v)
  | .whileLoop test body => .whileLoop (test.view v) (body.view v)
  | .loop initializer test update body =>
    .loop (initializer.view v) (view? v test) (view? v update) (body.view v)
  | .forIn target source body => .forIn (target.view v) (source.view v) (body.view v)
  | .forOf target source body => .forOf (target.view v) (source.view v) (body.view v)
  | .continues label => .continues label
  | .breaks label => .breaks label
  | .returns argument => .returns (view? v argument)
  | .throws argument => .throws (argument.view v)
  | .labelled label body => .labelled label (body.view v)
  | .switch discriminant clauses => .switch (discriminant.view v) (viewClauses v clauses)
  | .tryCatch body handler finalizer =>
    .tryCatch (viewStmts v body) (handler.view v) (viewStmt? v finalizer)
  | .scoped object body => .scoped (object.view v) (body.view v)

/-- The view of a statement that may be absent. -/
def viewStmt? (v : View) : Option Stmt → Option Stmt
  | none => none
  | some s => some (s.view v)

/-- The views of statements. -/
def viewStmts (v : View) : List Stmt → List Stmt
  | [] => []
  | s :: items => s.view v :: viewStmts v items

/-- The view of a clause of a `switch`. -/
def Clause.view (v : View) : Clause → Clause
  | .mk test body => .mk (view? v test) (viewStmts v body)

/-- The views of clauses. -/
def viewClauses (v : View) : List Clause → List Clause
  | [] => []
  | c :: clauses => c.view v :: viewClauses v clauses

/-- The view of the `catch` part of a `try`. -/
def Handler.view (v : View) : Handler → Handler
  | .absent => .absent
  | .mk parameter body => .mk (view? v parameter) (viewStmts v body)

/-- The view of the first part of a `for` head. -/
def LoopInitializer.view (v : View) : LoopInitializer → LoopInitializer
  | .absent => .absent
  | .expression value => .expression (value.view v)
  | .declaration kind bindings => .declaration kind (viewBindings v bindings)

/-- The view of the target of a loop. -/
def LoopTarget.view (v : View) : LoopTarget → LoopTarget
  | .var binding => .var (binding.view v)
  | .declaration kind target => .declaration kind (target.view v)
  | .expression target => .expression (target.view v)

end

attribute [simp] Expr.view Stmt.view

/-! ### Lists in views -/

section

variable (v : View)

/-- An optional expression is viewed if it is there. -/
@[simp] theorem view?_eq (e : Option Expr) : view? v e = e.map (Expr.view v) := by
  cases e <;> rfl

/-- A list of expressions is viewed item by item. -/
@[simp] theorem viewList_eq (items : List Expr) : viewList v items = items.map (Expr.view v) := by
  induction items with
  | nil => rfl
  | cons e items ih => rw [viewList, ih, List.map_cons]

/-- The elements of an array are viewed one by one, and a hole stays a hole. -/
@[simp] theorem viewElements_eq (elements : List (Option Expr)) :
    viewElements v elements = elements.map (Option.map (Expr.view v)) := by
  induction elements with
  | nil => rfl
  | cons e elements ih => rw [viewElements, ih, view?_eq, List.map_cons]

/-- Properties are viewed one by one. -/
@[simp] theorem viewProperties_eq (properties : List Property) :
    viewProperties v properties = properties.map (Property.view v) := by
  induction properties with
  | nil => rfl
  | cons p properties ih => rw [viewProperties, ih, List.map_cons]

/-- Bindings are viewed one by one. -/
@[simp] theorem viewBindings_eq (bindings : List Binding) :
    viewBindings v bindings = bindings.map (Binding.view v) := by
  induction bindings with
  | nil => rfl
  | cons b bindings ih => rw [viewBindings, ih, List.map_cons]

/-- The members of a class are viewed one by one. -/
@[simp] theorem viewMembers_eq (members : List ClassElement) :
    viewMembers v members = members.map (ClassElement.view v) := by
  induction members with
  | nil => rfl
  | cons m members ih => rw [viewMembers, ih, List.map_cons]

/-- An optional statement is viewed if it is there. -/
@[simp] theorem viewStmt?_eq (s : Option Stmt) : viewStmt? v s = s.map (Stmt.view v) := by
  cases s <;> rfl

/-- Statements are viewed one by one. -/
@[simp] theorem viewStmts_eq (items : List Stmt) : viewStmts v items = items.map (Stmt.view v) := by
  induction items with
  | nil => rfl
  | cons s items ih => rw [viewStmts, ih, List.map_cons]

/-- The clauses of a switch are viewed one by one. -/
@[simp] theorem viewClauses_eq (clauses : List Clause) :
    viewClauses v clauses = clauses.map (Clause.view v) := by
  induction clauses with
  | nil => rfl
  | cons c clauses ih => rw [viewClauses, ih, List.map_cons]

end

/-! ### Entries -/

/-- A `key: value` entry: its key and the start of its value. -/
abbrev Entry := Expr × Option Nat

namespace Occurrence

/-- The entry that an occurrence is. -/
def toEntry : Occurrence → Option Entry
  | keyed _ key value => some (key, value.start)
  | element _ => none

/-- An occurrence with a key is an entry: its key, and where its value starts. -/
@[simp] theorem toEntry_keyed (kind : ConstructKind) (key value : Expr) :
    (keyed kind key value).toEntry = some (key, value.start) := rfl

/-- An element of an array is no entry. -/
@[simp] theorem toEntry_element (span : Span) : (element span).toEntry = none := rfl

end Occurrence

/-- The entries among occurrences. -/
def entriesOf (occurrences : List Occurrence) : List Entry :=
  occurrences.filterMap Occurrence.toEntry

@[simp] theorem entriesOf_nil : entriesOf [] = [] := rfl

/-- Occurrences that follow each other give entries that follow each other. -/
@[simp] theorem entriesOf_append (xs ys : List Occurrence) :
    entriesOf (xs ++ ys) = entriesOf xs ++ entriesOf ys :=
  List.filterMap_append

/-- An occurrence with a key adds its entry in front. -/
@[simp] theorem entriesOf_keyed (kind : ConstructKind) (key value : Expr) (xs : List Occurrence) :
    entriesOf (.keyed kind key value :: xs) = (key, value.start) :: entriesOf xs := rfl

/-- An element of an array adds no entry. -/
@[simp] theorem entriesOf_element (span : Span) (xs : List Occurrence) :
    entriesOf (.element span :: xs) = entriesOf xs := rfl

/-- Trees that are read from a script. -/
class Tree (α : Type) where
  view : View → α → α
  entries : α → List Entry

namespace Tree

instance : Tree Expr := ⟨Expr.view, fun e ↦ entriesOf e.occurrences⟩

instance : Tree Binding := ⟨Binding.view, fun b ↦ entriesOf b.occurrences⟩

instance : Tree Parameters := ⟨Parameters.view, fun p ↦ entriesOf p.occurrences⟩

instance : Tree Function := ⟨Function.view, fun f ↦ entriesOf f.occurrences⟩

instance : Tree ArrowBody := ⟨ArrowBody.view, fun b ↦ entriesOf b.occurrences⟩

instance : Tree Class := ⟨Class.view, fun c ↦ entriesOf c.occurrences⟩

instance : Tree ClassElement := ⟨ClassElement.view, fun m ↦ entriesOf m.occurrences⟩

instance : Tree Stmt := ⟨Stmt.view, fun s ↦ entriesOf s.occurrences⟩

instance : Tree Clause := ⟨Clause.view, fun c ↦ entriesOf c.occurrences⟩

instance : Tree Handler := ⟨Handler.view, fun h ↦ entriesOf h.occurrences⟩

instance : Tree LoopInitializer := ⟨LoopInitializer.view, fun i ↦ entriesOf i.occurrences⟩

instance : Tree LoopTarget := ⟨LoopTarget.view, fun t ↦ entriesOf t.occurrences⟩

/-- An entry of an object; those of literals and of patterns hold the same entries. -/
instance : Tree Property := ⟨Property.view, fun p ↦ entriesOf (occurrencesInLiteral [p])⟩

variable {α : Type} [Tree α]

instance : Tree (Option α) := ⟨fun v ↦ Option.map (view v), fun a ↦ a.toList.flatMap entries⟩

instance : Tree Unit := ⟨fun _ a ↦ a, fun _ ↦ []⟩

instance {β : Type} [Tree β] : Tree (α × β) :=
  ⟨fun v p ↦ (view v p.1, view v p.2), fun p ↦ entries p.1 ++ entries p.2⟩

instance : Tree (List α) := ⟨fun v ↦ List.map (view v), fun as ↦ as.flatMap entries⟩

@[simp] theorem view_expr : (view : View → Expr → Expr) = Expr.view := rfl

@[simp] theorem view_property : (view : View → Property → Property) = Property.view := rfl

@[simp] theorem view_binding : (view : View → Binding → Binding) = Binding.view := rfl

@[simp] theorem view_parameters : (view : View → Parameters → Parameters) = Parameters.view := rfl

@[simp] theorem view_function : (view : View → Function → Function) = Function.view := rfl

@[simp] theorem view_arrowBody : (view : View → ArrowBody → ArrowBody) = ArrowBody.view := rfl

@[simp] theorem view_class : (view : View → Class → Class) = Class.view := rfl

@[simp] theorem view_classElement :
    (view : View → ClassElement → ClassElement) = ClassElement.view := rfl

@[simp] theorem view_stmt : (view : View → Stmt → Stmt) = Stmt.view := rfl

@[simp] theorem view_clause : (view : View → Clause → Clause) = Clause.view := rfl

@[simp] theorem view_handler : (view : View → Handler → Handler) = Handler.view := rfl

@[simp] theorem view_loopInitializer :
    (view : View → LoopInitializer → LoopInitializer) = LoopInitializer.view := rfl

@[simp] theorem view_loopTarget : (view : View → LoopTarget → LoopTarget) = LoopTarget.view := rfl

/-- An optional tree is viewed if it is there. -/
@[simp] theorem view_option (v : View) (a : Option α) : view v a = a.map (view v) := rfl

/-- Trees in a list are viewed one by one. -/
@[simp] theorem view_list (v : View) (as : List α) : view v as = as.map (view v) := rfl

/-- A pair of trees is viewed on both sides. -/
@[simp] theorem view_pair {β : Type} [Tree β] (v : View) (a : α) (b : β) :
    view v (a, b) = (view v a, view v b) := rfl

/-- A pair has the entries of its first tree, followed by those of its second. -/
@[simp] theorem entries_pair {β : Type} [Tree β] (a : α) (b : β) :
    entries (a, b) = entries a ++ entries b := rfl

/-- The entries of an expression are those among its occurrences. -/
theorem entries_expr (e : Expr) : entries e = entriesOf e.occurrences := rfl

@[simp] theorem entries_none : entries (none : Option α) = [] := rfl

/-- An optional tree that is there has its own entries. -/
@[simp] theorem entries_some (a : α) : entries (some a) = entries a :=
  List.append_nil _

@[simp] theorem entries_nil : entries ([] : List α) = [] := rfl

/-- A list has the entries of its first tree, followed by those of the others. -/
@[simp] theorem entries_cons (a : α) (as : List α) :
    entries (a :: as) = entries a ++ entries as := rfl

/-- Lists that follow each other have entries that follow each other. -/
@[simp] theorem entries_append (as bs : List α) : entries (as ++ bs) = entries as ++ entries bs :=
  List.flatMap_append

/-! ### Entries of nodes -/

attribute [simp] Expr.occurrences Stmt.occurrences

/-- What is found in an optional expression has its entries. -/
@[simp] theorem entries_in? (e : Option Expr) : entriesOf (occurrencesIn? e) = entries e := by
  cases e with
  | none => rfl
  | some e => exact (entries_some e).symm

/-- What is found in a list of expressions has its entries. -/
@[simp] theorem entries_inList (items : List Expr) :
    entriesOf (occurrencesInList items) = entries items := by
  induction items with
  | nil => rfl
  | cons e items ih => rw [occurrencesInList, entriesOf_append, ih]; rfl

/-- What is found in the elements of an array has their entries. -/
@[simp] theorem entries_inElements (elements : List (Option Expr)) :
    entriesOf (occurrencesInElements elements) = entries elements := by
  induction elements with
  | nil => rfl
  | cons e elements ih =>
    cases e with
    | none => rw [occurrencesInElements, ih, entries_cons]; rfl
    | some e => rw [occurrencesInElements, entriesOf_append, ih, entries_cons, entries_some]; rfl

/-- The elements of a pattern are listed themselves, which adds no entry to theirs. -/
@[simp] theorem entries_ofElements (elements : List (Option Expr)) :
    entriesOf (occurrencesOfElements elements) = entries elements := by
  induction elements with
  | nil => rfl
  | cons e elements ih =>
    cases e with
    | none => rw [occurrencesOfElements, ih, entries_cons]; rfl
    | some e =>
      rw [occurrencesOfElements, List.cons_append, entriesOf_element, entriesOf_append, ih,
        entries_cons, entries_some]
      rfl

/-- The rest element of a pattern is listed itself, which adds no entry to its own. -/
@[simp] theorem entries_ofRest (rest : Option Expr) :
    entriesOf (occurrencesOfRest rest) = entries rest := by
  cases rest with
  | none => rfl
  | some e => rw [occurrencesOfRest, entriesOf_element, entries_some]; rfl

/-- The entries of a `key: value` entry of the given kind, apart from those of its value. -/
def entriesOfKey (kind : PropertyKind) (key value : Expr) : List Entry :=
  match kind with
  | .value => (key, value.start) :: entries key
  | _ => entries key

/-- A shorthand property has the entries of its initializer; its name is none. -/
@[simp] theorem entries_short (span : Span) (name : Bytes) (initializer : Option Expr) :
    entries (Property.short span name initializer) = entries initializer := by
  simp [entries, occurrencesInLiteral]

/-- A property with a key may be an entry, and comes before those in its value. -/
@[simp] theorem entries_keyed (kind : PropertyKind) (computed : Bool) (key value : Expr) :
    entries (Property.keyed kind computed key value)
      = entriesOfKey kind key value ++ entries value := by
  cases kind <;> simp [entries, occurrencesInLiteral, entriesOfKey]

/-- A spread property has the entries of what it spreads. -/
@[simp] theorem entries_spread (inner : Expr) : entries (Property.spread inner) = entries inner := by
  simp [entries, occurrencesInLiteral]

/-- An object literal has the entries of its properties. -/
@[simp] theorem entries_inLiteral (properties : List Property) :
    entriesOf (occurrencesInLiteral properties) = entries properties := by
  induction properties with
  | nil => rfl
  | cons p properties ih =>
    rw [entries_cons, ← ih]
    cases p with
    | short span name initializer => simp [occurrencesInLiteral]
    | keyed kind computed key value =>
      cases kind <;> simp [occurrencesInLiteral, entriesOfKey, entries_expr]
    | spread inner => simp [occurrencesInLiteral, entries_expr]

/-- An object pattern has the entries of its properties, as the literal would. -/
@[simp] theorem entries_inPattern (properties : List Property) :
    entriesOf (occurrencesInPattern properties) = entries properties := by
  induction properties with
  | nil => rfl
  | cons p properties ih =>
    rw [entries_cons, ← ih]
    cases p with
    | short span name initializer => simp [occurrencesInPattern]
    | keyed kind computed key value =>
      cases kind <;> simp [occurrencesInPattern, entriesOfKey, entries_expr]
    | spread inner => simp [occurrencesInPattern, entries_expr]

/-- What is found in bindings has their entries. -/
@[simp] theorem entries_inBindings (bindings : List Binding) :
    entriesOf (occurrencesInBindings bindings) = entries bindings := by
  induction bindings with
  | nil => rfl
  | cons b bindings ih => rw [occurrencesInBindings, entriesOf_append, ih]; rfl

/-- What is found in the members of a class has their entries. -/
@[simp] theorem entries_inMembers (members : List ClassElement) :
    entriesOf (occurrencesInMembers members) = entries members := by
  induction members with
  | nil => rfl
  | cons m members ih => rw [occurrencesInMembers, entriesOf_append, ih]; rfl

/-- What is found in an optional statement has its entries. -/
@[simp] theorem entries_inStmt? (s : Option Stmt) :
    entriesOf (occurrencesInStmt? s) = entries s := by
  cases s with
  | none => rfl
  | some s => exact (entries_some s).symm

/-- What is found in statements has their entries. -/
@[simp] theorem entries_inStmts (items : List Stmt) :
    entriesOf (occurrencesInStmts items) = entries items := by
  induction items with
  | nil => rfl
  | cons s items ih => rw [occurrencesInStmts, entriesOf_append, ih]; rfl

/-- What is found in the clauses of a switch has their entries. -/
@[simp] theorem entries_inClauses (clauses : List Clause) :
    entriesOf (occurrencesInClauses clauses) = entries clauses := by
  induction clauses with
  | nil => rfl
  | cons c clauses ih => rw [occurrencesInClauses, entriesOf_append, ih]; rfl

end Tree

end ColonGap.Script

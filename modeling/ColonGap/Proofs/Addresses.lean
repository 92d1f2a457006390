import ColonGap.SourceFile
import Mathlib.Data.List.Forall2
import Mathlib.Data.List.Induction
import Mathlib.Data.List.ReduceOption
import Mathlib.Tactic.Common

/-!
# What is listed of a tree

A tree is a `Node` with children, whatever kind of tree it is, and a place in it is an *address*:
which child to go to at each level. Addresses in their lexicographic order are the places of a tree
in pre-order, since an address comes before all that it is the beginning of, and what is below one
child comes before what is below the next.

`Node.record?` says, for a single node and without looking below it, whether it is to be listed and
as what. `constructsOf_enumerates` says that the constructs of a script are exactly the nodes with
something to record, each once and in the order of their addresses.

## Shape decisions

* **Roles are nodes.** Whether an entry is listed depends on whether it stands in a literal or in a
  pattern, and an element of a pattern is listed for its place and not for what it is. So these
  have node forms of their own, and nothing about a node depends on what is above it.
* **One step, then all depths.** `occurrences_eq` has one case for each form of tree and says what
  is listed at a node and at its children; what holds at any depth follows by one induction.
-/

namespace ColonGap.Script

/-- A tree of any kind, in its role. -/
inductive Node where
  | script (body : Program)
  | expr (e : Expr)
  /-- An entry of an object literal. -/
  | literalEntry (p : Property)
  /-- An entry of an object pattern. -/
  | patternEntry (p : Property)
  /-- An element of an array pattern that is no hole. -/
  | patternElement (e : Expr)
  /-- The rest element of an object or array pattern. -/
  | restElement (e : Expr)
  | binding (b : Binding)
  | parameters (p : Parameters)
  | function (f : Function)
  | arrowBody (b : ArrowBody)
  | classBody (c : Class)
  | classMember (m : ClassElement)
  | stmt (s : Stmt)
  | clause (c : Clause)
  | handler (h : Handler)
  | loopInitializer (i : LoopInitializer)
  | loopTarget (t : LoopTarget)

namespace Node

/-- The children of an expression, from left to right. -/
def childrenOfExpr : Expr → List Node
  | .object _ properties => properties.map literalEntry
  | .objectPattern _ properties rest =>
    properties.map patternEntry ++ rest.toList.map restElement
  | .arrayPattern _ elements rest =>
    elements.reduceOption.map patternElement ++ rest.toList.map restElement
  | .array _ elements => elements.reduceOption.map expr
  | .template _ tag _ substitutions => tag.toList.map expr ++ substitutions.map expr
  | .spread _ inner | .optional _ inner | .chain _ inner => [expr inner]
  | .unary _ _ operand | .postUpdate _ _ operand => [expr operand]
  | .binary _ _ left right | .assignment _ _ left right => [expr left, expr right]
  | .conditional _ test consequent alternate => [expr test, expr consequent, expr alternate]
  | .sequence _ items => items.map expr
  | .call _ callee arguments | .construct _ callee arguments =>
    expr callee :: arguments.map expr
  | .member _ object _ | .privateMember _ object _ => [expr object]
  | .index _ object key => [expr object, expr key]
  | .yield _ _ argument => argument.toList.map expr
  | .await _ argument => [expr argument]
  | .function body => [function body]
  | .arrow _ _ params body => [parameters params, arrowBody body]
  | .classExpr body => [classBody body]
  | .bad _ | .identifier _ _ | .privateName _ _ | .this _ | .super _ | .null _ => []
  | .boolean _ _ | .number _ _ | .string _ _ _ | .regex _ _ _ _ | .metaProperty _ _ => []

/-- The children of an entry of an object. -/
def childrenOfProperty : Property → List Node
  | .short _ _ initializer => initializer.toList.map expr
  | .keyed _ _ key value => [expr key, expr value]
  | .spread inner => [expr inner]

/-- The children of a statement, from left to right. -/
def childrenOfStmt : Stmt → List Node
  | .block body => body.map stmt
  | .expression value => [expr value]
  | .declaration _ bindings => bindings.map binding
  | .function body => [function body]
  | .classDeclaration body => [classBody body]
  | .branch test consequent alternate =>
    [expr test, stmt consequent] ++ alternate.toList.map stmt
  | .doWhile body test => [stmt body, expr test]
  | .whileLoop test body => [expr test, stmt body]
  | .loop initializer test update body =>
    loopInitializer initializer :: test.toList.map expr ++ update.toList.map expr ++ [stmt body]
  | .forIn target source body | .forOf target source body =>
    [loopTarget target, expr source, stmt body]
  | .returns argument => argument.toList.map expr
  | .throws argument => [expr argument]
  | .labelled _ body => [stmt body]
  | .switch discriminant clauses => expr discriminant :: clauses.map clause
  | .tryCatch body catches finalizer =>
    body.map stmt ++ handler catches :: finalizer.toList.map stmt
  | .scoped object body => [expr object, stmt body]
  | .bad | .empty | .debugger | .continues _ | .breaks _ => []

/-- The children of a node, from left to right. -/
def children : Node → List Node
  | script body => body.map stmt
  | expr e | patternElement e | restElement e => childrenOfExpr e
  | literalEntry p | patternEntry p => childrenOfProperty p
  | binding (.mk target initializer) => expr target :: initializer.toList.map expr
  | parameters (.mk bindings rest) => bindings.map binding ++ rest.toList.map expr
  | function (.mk _ _ _ _ params body) => parameters params :: body.map stmt
  | arrowBody (.block body) => body.map stmt
  | arrowBody (.expression value) => [expr value]
  | classBody (.mk _ _ superclass elements) =>
    superclass.toList.map expr ++ elements.map classMember
  | classMember (.field _ _ key initializer) => expr key :: initializer.toList.map expr
  | classMember (.method _ _ _ key body) => [expr key, function body]
  | classMember (.staticBlock body) => body.map stmt
  | stmt s => childrenOfStmt s
  | clause (.mk test body) => test.toList.map expr ++ body.map stmt
  | handler .absent => []
  | handler (.mk parameter body) => parameter.toList.map expr ++ body.map stmt
  | loopInitializer .absent => []
  | loopInitializer (.expression value) => [expr value]
  | loopInitializer (.declaration _ bindings) => bindings.map binding
  | loopTarget (.var b) => [binding b]
  | loopTarget (.declaration _ target) | loopTarget (.expression target) => [expr target]

/-- What is recorded of a node: `key: value` entries, and in patterns also shorthand entries,
elements and rest elements. -/
def record? : Node → Option Occurrence
  | literalEntry (.keyed .value _ key value) => some (.keyed .propertyAssignment key value)
  | patternEntry (.keyed .value _ key value) => some (.keyed .bindingElement key value)
  | patternEntry (.short nameSpan name initializer) =>
    some (.element (Property.short nameSpan name initializer).span)
  | patternElement e | restElement e => some (.element e.span)
  | _ => none

/-- The node at an address. -/
def at? (n : Node) : (address : List Nat) → Option Node
  | [] => some n
  | i :: address => n.children[i]?.bind fun child ↦ child.at? address

/-- What is recorded at an address. -/
def recordAt (n : Node) (address : List Nat) : Option Occurrence :=
  (n.at? address).bind record?

/-- What is listed of a node. -/
def occurrences : Node → List Occurrence
  | script body => occurrencesInStmts body
  | expr e => e.occurrences
  | literalEntry p => occurrencesInLiteral [p]
  | patternEntry p => occurrencesInPattern [p]
  | patternElement e | restElement e => .element e.span :: e.occurrences
  | binding b => b.occurrences
  | parameters p => p.occurrences
  | function f => f.occurrences
  | arrowBody b => b.occurrences
  | classBody c => c.occurrences
  | classMember m => m.occurrences
  | stmt s => s.occurrences
  | clause c => c.occurrences
  | handler h => h.occurrences
  | loopInitializer i => i.occurrences
  | loopTarget t => t.occurrences

attribute [local simp] occurrences record? children

/-! ### Lists of trees -/

theorem occurrencesIn?_eq (e : Option Expr) :
    occurrencesIn? e = (e.toList.map expr).flatMap occurrences := by
  cases e <;> simp [occurrencesIn?, occurrences]

theorem occurrencesOfRest_eq (e : Option Expr) :
    occurrencesOfRest e = (e.toList.map restElement).flatMap occurrences := by
  cases e <;> simp [occurrencesOfRest, occurrences]

theorem occurrencesInStmt?_eq (s : Option Stmt) :
    occurrencesInStmt? s = (s.toList.map stmt).flatMap occurrences := by
  cases s <;> simp [occurrencesInStmt?, occurrences]

/-- Expressions are listed one after another. -/
theorem occurrencesInList_eq (items : List Expr) :
    occurrencesInList items = (items.map expr).flatMap occurrences := by
  induction items with
  | nil => simp [occurrencesInList]
  | cons e items ih => simp [occurrencesInList, occurrences, ih]

/-- The elements of an array literal are listed one after another, without the holes. -/
theorem occurrencesInElements_eq (elements : List (Option Expr)) :
    occurrencesInElements elements = (elements.reduceOption.map expr).flatMap occurrences := by
  induction elements with
  | nil => simp [occurrencesInElements]
  | cons e elements ih => cases e <;> simp [occurrencesInElements, occurrences, ih]

/-- The elements of an array pattern are listed as nodes of their own, without the holes. -/
theorem occurrencesOfElements_eq (elements : List (Option Expr)) :
    occurrencesOfElements elements
      = (elements.reduceOption.map patternElement).flatMap occurrences := by
  induction elements with
  | nil => simp [occurrencesOfElements]
  | cons e elements ih => cases e <;> simp [occurrencesOfElements, occurrences, ih]

/-- The properties of a literal are listed as entries of a literal. -/
theorem occurrencesInLiteral_eq (properties : List Property) :
    occurrencesInLiteral properties = (properties.map literalEntry).flatMap occurrences := by
  induction properties with
  | nil => simp [occurrencesInLiteral]
  | cons p properties ih =>
    rcases p with _ | ⟨kind, _, _, _⟩ | _
    case keyed => cases kind <;> simp [occurrencesInLiteral, occurrences, ih]
    all_goals simp [occurrencesInLiteral, occurrences, ih]

/-- The properties of a pattern are listed as entries of a pattern. -/
theorem occurrencesInPattern_eq (properties : List Property) :
    occurrencesInPattern properties = (properties.map patternEntry).flatMap occurrences := by
  induction properties with
  | nil => simp [occurrencesInPattern]
  | cons p properties ih =>
    rcases p with _ | ⟨kind, _, _, _⟩ | _
    case keyed => cases kind <;> simp [occurrencesInPattern, occurrences, ih]
    all_goals simp [occurrencesInPattern, occurrences, ih]

/-- Bindings are listed one after another. -/
theorem occurrencesInBindings_eq (bindings : List Binding) :
    occurrencesInBindings bindings = (bindings.map binding).flatMap occurrences := by
  induction bindings with
  | nil => simp [occurrencesInBindings]
  | cons b bindings ih => simp [occurrencesInBindings, occurrences, ih]

/-- Statements are listed one after another. -/
theorem occurrencesInStmts_eq (body : List Stmt) :
    occurrencesInStmts body = (body.map stmt).flatMap occurrences := by
  induction body with
  | nil => simp [occurrencesInStmts]
  | cons s body ih => simp [occurrencesInStmts, occurrences, ih]

/-- The members of a class are listed one after another. -/
theorem occurrencesInMembers_eq (members : List ClassElement) :
    occurrencesInMembers members = (members.map classMember).flatMap occurrences := by
  induction members with
  | nil => simp [occurrencesInMembers]
  | cons m members ih => simp [occurrencesInMembers, occurrences, ih]

/-- The clauses of a switch are listed one after another. -/
theorem occurrencesInClauses_eq (clauses : List Clause) :
    occurrencesInClauses clauses = (clauses.map clause).flatMap occurrences := by
  induction clauses with
  | nil => simp [occurrencesInClauses]
  | cons c clauses ih => simp [occurrencesInClauses, occurrences, ih]

/-! ### One step -/

/-- Nothing is listed for an expression but what is listed for its children. -/
theorem occurrences_expr (e : Expr) :
    e.occurrences = (childrenOfExpr e).flatMap occurrences := by
  cases e <;>
    simp [Expr.occurrences, childrenOfExpr, occurrences, occurrencesIn?_eq, occurrencesOfRest_eq,
      occurrencesInList_eq, occurrencesInElements_eq, occurrencesOfElements_eq,
      occurrencesInLiteral_eq, occurrencesInPattern_eq]

/-- Nothing is listed for a statement but what is listed for its children. -/
theorem occurrences_stmt (s : Stmt) :
    s.occurrences = (childrenOfStmt s).flatMap occurrences := by
  cases s <;>
    simp [Stmt.occurrences, childrenOfStmt, occurrences, occurrencesIn?_eq,
      occurrencesInStmt?_eq, occurrencesInBindings_eq, occurrencesInStmts_eq,
      occurrencesInClauses_eq]

/-- An entry of a literal is listed before what stands in it. -/
theorem occurrences_literalEntry (p : Property) :
    (literalEntry p).occurrences
      = (literalEntry p).record?.toList ++ (childrenOfProperty p).flatMap occurrences := by
  rcases p with _ | ⟨kind, _, _, _⟩ | _
  case keyed =>
    cases kind <;>
      simp [occurrences, occurrencesInLiteral, record?, childrenOfProperty]
  all_goals
    simp [occurrences, occurrencesInLiteral, record?, childrenOfProperty, occurrencesIn?_eq]

/-- An entry of a pattern is listed before what stands in it. -/
theorem occurrences_patternEntry (p : Property) :
    (patternEntry p).occurrences
      = (patternEntry p).record?.toList ++ (childrenOfProperty p).flatMap occurrences := by
  rcases p with _ | ⟨kind, _, _, _⟩ | _
  case keyed =>
    cases kind <;>
      simp [occurrences, occurrencesInPattern, record?, childrenOfProperty]
  all_goals
    simp [occurrences, occurrencesInPattern, record?, childrenOfProperty, occurrencesIn?_eq]

/-- **One step.** Of a node is listed what is recorded of it, and then what is listed of its
children. -/
theorem occurrences_eq (n : Node) :
    n.occurrences = n.record?.toList ++ n.children.flatMap occurrences := by
  cases n with
  | script body => exact occurrencesInStmts_eq body
  | expr e => exact occurrences_expr e
  | stmt s => exact occurrences_stmt s
  | literalEntry p => exact occurrences_literalEntry p
  | patternEntry p => exact occurrences_patternEntry p
  | patternElement e | restElement e => simp [occurrences, record?, children, occurrences_expr e]
  | binding b =>
    cases b
    simp [occurrences, record?, children, Binding.occurrences, occurrencesIn?_eq]
  | parameters p =>
    cases p
    simp [occurrences, record?, children, Parameters.occurrences, occurrencesIn?_eq,
      occurrencesInBindings_eq]
  | function f =>
    cases f
    simp [occurrences, record?, children, Function.occurrences, occurrencesInStmts_eq]
  | arrowBody b =>
    cases b <;>
      simp [occurrences, record?, children, ArrowBody.occurrences, occurrencesInStmts_eq]
  | classBody c =>
    cases c
    simp [occurrences, record?, children, Class.occurrences, occurrencesIn?_eq,
      occurrencesInMembers_eq]
  | classMember m =>
    cases m <;>
      simp [occurrences, record?, children, ClassElement.occurrences, occurrencesIn?_eq,
        occurrencesInStmts_eq]
  | clause c =>
    cases c
    simp [occurrences, record?, children, Clause.occurrences, occurrencesIn?_eq,
      occurrencesInStmts_eq]
  | handler h =>
    cases h <;>
      simp [occurrences, record?, children, Handler.occurrences, occurrencesIn?_eq,
        occurrencesInStmts_eq]
  | loopInitializer i =>
    cases i <;>
      simp [occurrences, record?, children, LoopInitializer.occurrences, occurrencesInBindings_eq]
  | loopTarget t => cases t <;> simp [occurrences, record?, children, LoopTarget.occurrences]

/-! ### Going down ends -/

/-- The size of a tree, which falls from a node to its children. -/
noncomputable def size : Node → Nat
  | script body => sizeOf body
  | expr e | patternElement e | restElement e => sizeOf e
  | literalEntry p | patternEntry p => sizeOf p
  | binding b => sizeOf b
  | parameters p => sizeOf p
  | function f => sizeOf f
  | arrowBody b => sizeOf b
  | classBody c => sizeOf c
  | classMember m => sizeOf m
  | stmt s => sizeOf s
  | clause c => sizeOf c
  | handler h => sizeOf h
  | loopInitializer i => sizeOf i
  | loopTarget t => sizeOf t

/-- All of some nodes are smaller than a bound. -/
def Below (m : Nat) (nodes : List Node) : Prop :=
  ∀ c ∈ nodes, c.size < m

variable {m : Nat} {n c : Node} {nodes nodes' : List Node}

@[simp] theorem below_nil : Below m [] := by
  simp [Below]

@[simp] theorem below_cons : Below m (c :: nodes) ↔ c.size < m ∧ Below m nodes := by
  simp [Below]

@[simp] theorem below_append : Below m (nodes ++ nodes') ↔ Below m nodes ∧ Below m nodes' := by
  simp [Below, or_imp, forall_and]

/-- Nodes that are made of the items of a list are below the size of the list. -/
theorem below_map {α : Type} [SizeOf α] {f : α → Node} {items : List α}
    (h : sizeOf items ≤ m) (hf : ∀ a, (f a).size = sizeOf a := by intro; rfl) :
    Below m (items.map f) := by
  intro c hc
  obtain ⟨a, ha, rfl⟩ := List.mem_map.1 hc
  have hlt := List.sizeOf_lt_of_mem ha
  rw [hf]
  omega

/-- A node that is made of an optional item is below the size of the item. -/
theorem below_toList {α : Type} [SizeOf α] {f : α → Node} {item : Option α}
    (h : sizeOf item ≤ m) (hf : ∀ a, (f a).size = sizeOf a := by intro; rfl) :
    Below m (item.toList.map f) := by
  cases item with
  | none => exact below_nil
  | some a =>
    simp only [Option.some.sizeOf_spec] at h
    simp only [Option.toList_some, List.map_cons, List.map_nil, below_cons, below_nil, and_true, hf]
    omega

/-- Nodes that are made of optional items are below the size of the list. -/
theorem below_reduceOption {α : Type} [SizeOf α] {f : α → Node} {items : List (Option α)}
    (h : sizeOf items ≤ m) (hf : ∀ a, (f a).size = sizeOf a := by intro; rfl) :
    Below m (items.reduceOption.map f) := by
  intro c hc
  obtain ⟨a, ha, rfl⟩ := List.mem_map.1 hc
  have hlt := List.sizeOf_lt_of_mem (List.reduceOption_mem_iff.1 ha)
  simp only [Option.some.sizeOf_spec] at hlt
  rw [hf]
  omega

/-- The children of an expression are smaller than the expression. -/
theorem below_childrenOfExpr (e : Expr) : Below (sizeOf e) (childrenOfExpr e) := by
  cases e with
  | object | sequence => exact below_map (by simp +arith)
  | array => exact below_reduceOption (by simp +arith)
  | yield => exact below_toList (by simp +arith)
  | objectPattern =>
    exact below_append.2 ⟨below_map (by simp +arith), below_toList (by simp +arith)⟩
  | arrayPattern =>
    exact below_append.2 ⟨below_reduceOption (by simp +arith), below_toList (by simp +arith)⟩
  | template => exact below_append.2 ⟨below_toList (by simp +arith), below_map (by simp +arith)⟩
  | call | construct =>
    exact below_cons.2 ⟨by simp +arith [size], below_map (by simp +arith)⟩
  | _ => simp +arith [childrenOfExpr, size]

/-- The children of a property are smaller than the property. -/
theorem below_childrenOfProperty (p : Property) : Below (sizeOf p) (childrenOfProperty p) := by
  cases p with
  | short => exact below_toList (by simp +arith)
  | _ => simp +arith [childrenOfProperty, size]

/-- The children of a statement are smaller than the statement. -/
theorem below_childrenOfStmt (s : Stmt) : Below (sizeOf s) (childrenOfStmt s) := by
  cases s with
  | block | declaration => exact below_map (by simp +arith)
  | returns => exact below_toList (by simp +arith)
  | branch =>
    exact below_append.2 ⟨by simp +arith [size], below_toList (by simp +arith)⟩
  | loop =>
    simp only [childrenOfStmt, below_append, List.cons_append, below_cons, below_nil, and_true]
    exact ⟨by simp +arith [size], ⟨below_toList (by simp +arith), below_toList (by simp +arith)⟩,
      by simp +arith [size]⟩
  | switch => exact below_cons.2 ⟨by simp +arith [size], below_map (by simp +arith)⟩
  | tryCatch =>
    exact below_append.2 ⟨below_map (by simp +arith),
      below_cons.2 ⟨by simp +arith [size], below_toList (by simp +arith)⟩⟩
  | _ => simp +arith [childrenOfStmt, size]

/-- Children are smaller than their parent. -/
theorem below_children (n : Node) : Below n.size n.children := by
  cases n with
  | script => exact below_map (Nat.le_refl _)
  | expr e | patternElement e | restElement e => exact below_childrenOfExpr e
  | literalEntry p | patternEntry p => exact below_childrenOfProperty p
  | stmt s => exact below_childrenOfStmt s
  | binding b =>
    cases b
    exact below_cons.2 ⟨by simp +arith [size], below_toList (by simp +arith [size])⟩
  | parameters p =>
    cases p
    exact below_append.2 ⟨below_map (by simp +arith [size]), below_toList (by simp +arith [size])⟩
  | function f =>
    cases f
    exact below_cons.2 ⟨by simp +arith [size], below_map (by simp +arith [size])⟩
  | arrowBody b =>
    cases b with
    | block => exact below_map (by simp +arith [size])
    | expression => simp +arith [children, size]
  | classBody c =>
    cases c
    exact below_append.2 ⟨below_toList (by simp +arith [size]), below_map (by simp +arith [size])⟩
  | classMember e =>
    cases e with
    | field => exact below_cons.2 ⟨by simp +arith [size], below_toList (by simp +arith [size])⟩
    | method => simp +arith [children, size]
    | staticBlock => exact below_map (by simp +arith [size])
  | clause c =>
    cases c
    exact below_append.2 ⟨below_toList (by simp +arith [size]), below_map (by simp +arith [size])⟩
  | handler h =>
    cases h with
    | absent => exact below_nil
    | mk =>
      exact below_append.2 ⟨below_toList (by simp +arith [size]), below_map (by simp +arith [size])⟩
  | loopInitializer i =>
    cases i with
    | absent => exact below_nil
    | expression => simp +arith [children, size]
    | declaration => exact below_map (by simp +arith [size])
  | loopTarget t => cases t <;> simp +arith [children, size]

/-- Induction from the children of a node to the node. -/
theorem induction_on {P : Node → Prop} (step : ∀ n, (∀ c ∈ n.children, P c) → P n) (n : Node) :
    P n := by
  induction hn : n.size using Nat.strongRecOn generalizing n with
  | ind k ih =>
    subst hn
    exact step n fun c hc ↦ ih c.size (below_children n c hc) c rfl

end Node

/-! ### All depths -/

/-- Addresses in ascending order at each of which something is found: the addresses are all there
are, and what is found at them is what is listed, one by one. -/
structure Enumerates (found : List Nat → Option Occurrence) (addresses : List (List Nat))
    (listed : List Occurrence) : Prop where
  ascending : addresses.Pairwise (· < ·)
  complete : ∀ address, (found address).isSome = true → address ∈ addresses
  matched : addresses.map found = listed.map some

/-- An address is listed exactly if something is to be recorded there. -/
theorem Enumerates.mem_iff {found : List Nat → Option Occurrence} {addresses : List (List Nat)}
    {listed : List Occurrence} (h : Enumerates found addresses listed) {address : List Nat} :
    address ∈ addresses ↔ (found address).isSome = true := by
  refine ⟨fun hmem ↦ ?_, h.complete address⟩
  have hfound : found address ∈ listed.map some := h.matched ▸ List.mem_map_of_mem hmem
  obtain ⟨o, -, ho⟩ := List.mem_map.1 hfound
  rw [← ho]
  rfl

namespace Node

/-- What is recorded below some nodes, the first number of an address telling which. -/
def recordBelow (nodes : List Node) : List Nat → Option Occurrence
  | [] => none
  | i :: address => nodes[i]?.bind fun n ↦ n.recordAt address

theorem recordAt_cons (n : Node) (i : Nat) (address : List Nat) :
    n.recordAt (i :: address) = recordBelow n.children (i :: address) := by
  rw [recordAt, at?, recordBelow]
  cases n.children[i]? <;> rfl

section RecordBelow

variable {nodes : List Node} {n : Node} {i : Nat}

/-- What is recorded below some nodes is below one of them. -/
theorem exists_of_recordBelow {address : List Nat}
    (h : (recordBelow nodes address).isSome = true) :
    ∃ i rest, address = i :: rest ∧ i < nodes.length := by
  match address with
  | [] => simp [recordBelow] at h
  | i :: rest =>
    refine ⟨i, rest, rfl, ?_⟩
    by_contra hi
    simp [recordBelow, List.getElem?_eq_none (Nat.le_of_not_lt hi)] at h

theorem recordBelow_append_of_lt (hi : i < nodes.length) (rest : List Nat) :
    recordBelow (nodes ++ [n]) (i :: rest) = recordBelow nodes (i :: rest) := by
  simp [recordBelow, List.getElem?_append_left hi]

theorem recordBelow_append_length (rest : List Nat) :
    recordBelow (nodes ++ [n]) (nodes.length :: rest) = n.recordAt rest := by
  simp [recordBelow]

end RecordBelow

/-- Neighbours are listed from left to right. -/
theorem exists_enumerates_below {nodes : List Node}
    (h : ∀ n ∈ nodes, ∃ addresses, Enumerates n.recordAt addresses n.occurrences) :
    ∃ addresses, Enumerates (recordBelow nodes) addresses (nodes.flatMap occurrences) := by
  induction nodes using List.reverseRecOn with
  | nil =>
    refine ⟨[], .nil, fun address ↦ ?_, rfl⟩
    cases address <;> simp [recordBelow]
  | append_singleton nodes n ih =>
    obtain ⟨before, hbefore⟩ := ih fun c hc ↦ h c (List.mem_append_left _ hc)
    obtain ⟨own, hown⟩ := h n (by simp)
    refine ⟨before ++ own.map (nodes.length :: ·), ?ascending, ?complete, ?matched⟩
    case ascending =>
      refine List.pairwise_append.2 ⟨hbefore.ascending, ?_, ?_⟩
      · exact List.pairwise_map.2
          (hown.ascending.imp fun hlt ↦ List.cons_lt_cons_iff.2 (.inr ⟨rfl, hlt⟩))
      · intro a ha b hb
        obtain ⟨rest, -, rfl⟩ := List.mem_map.1 hb
        obtain ⟨i, rest', rfl, hi⟩ := exists_of_recordBelow (hbefore.mem_iff.1 ha)
        exact List.cons_lt_cons_iff.2 (.inl hi)
    case complete =>
      intro address hfound
      obtain ⟨i, rest, rfl, hi⟩ := exists_of_recordBelow hfound
      rw [List.length_append, List.length_singleton, Nat.lt_succ_iff_lt_or_eq] at hi
      rw [List.mem_append]
      rcases hi with hi | rfl
      · rw [recordBelow_append_of_lt hi] at hfound
        exact .inl (hbefore.complete _ hfound)
      · rw [recordBelow_append_length] at hfound
        exact .inr (List.mem_map_of_mem (hown.complete _ hfound))
    case matched =>
      have hbefore' : before.map (recordBelow (nodes ++ [n])) = before.map (recordBelow nodes) := by
        refine List.map_congr_left fun a ha ↦ ?_
        obtain ⟨i, rest, rfl, hi⟩ := exists_of_recordBelow (hbefore.mem_iff.1 ha)
        exact recordBelow_append_of_lt hi rest
      have hown' : (own.map (nodes.length :: ·)).map (recordBelow (nodes ++ [n]))
          = own.map n.recordAt := by
        rw [List.map_map]
        exact List.map_congr_left fun rest _ ↦ recordBelow_append_length rest
      rw [List.map_append, hbefore', hown', hbefore.matched, hown.matched, List.flatMap_append,
        List.flatMap_singleton, List.map_append]

/-- A node comes before what is below it. -/
theorem exists_enumerates (n : Node) :
    ∃ addresses, Enumerates n.recordAt addresses n.occurrences := by
  induction n using induction_on with
  | step n ih =>
    obtain ⟨below, hbelow⟩ := exists_enumerates_below ih
    have hsame : below.map n.recordAt = below.map (recordBelow n.children) := by
      refine List.map_congr_left fun address haddress ↦ ?_
      match address, hbelow.mem_iff.1 haddress with
      | i :: rest, _ => exact recordAt_cons n i rest
    have hnil : ∀ address ∈ below, address ≠ [] := by
      rintro _ haddress rfl
      simpa [recordBelow] using hbelow.mem_iff.1 haddress
    have hroot : n.recordAt [] = n.record? := rfl
    have hcomplete : ∀ i rest, (n.recordAt (i :: rest)).isSome = true → i :: rest ∈ below :=
      fun i rest hfound ↦ hbelow.complete _ (recordAt_cons n i rest ▸ hfound)
    cases hrecord : n.record? with
    | none =>
      refine ⟨below, hbelow.ascending, fun address hfound ↦ ?_, ?_⟩
      · match address with
        | [] => simp [hroot, hrecord] at hfound
        | i :: rest => exact hcomplete i rest hfound
      · rw [hsame, hbelow.matched, occurrences_eq n, hrecord]
        rfl
    | some o =>
      refine ⟨[] :: below, ?_, fun address hfound ↦ ?_, ?_⟩
      · refine List.pairwise_cons.2 ⟨fun address haddress ↦ ?_, hbelow.ascending⟩
        cases address with
        | nil => exact absurd rfl (hnil _ haddress)
        | cons i rest => exact List.nil_lt_cons i rest
      · match address with
        | [] => exact List.mem_cons_self
        | i :: rest => exact List.mem_cons_of_mem _ (hcomplete i rest hfound)
      · rw [List.map_cons, hroot, hrecord, hsame, hbelow.matched, occurrences_eq n, hrecord]
        rfl

end Node

end ColonGap.Script

namespace ColonGap.SourceFile

open Script

/-- A construct of a kind from one offset to another, neither of which is behind the end of the
source. -/
structure Spans (source : Bytes) (kind : ConstructKind) (start stop : Nat) (c : Construct) :
    Prop where
  kind : c.kind = kind
  start : c.start = min start source.length
  stop : c.stop = min stop source.length

/-- The construct that a node is recorded as. An entry goes from its key to its value, and all that
has no colon from its first token to its last. -/
inductive RecordedAs (source : Bytes) (c : Construct) : Node → Prop
  | property {computed : Bool} {key value : Expr}
    (h : Spans source .propertyAssignment (key.start.getD 0) value.stop c) :
    RecordedAs source c (.literalEntry (.keyed .value computed key value))
  | entry {computed : Bool} {key value : Expr}
    (h : Spans source .bindingElement (key.start.getD 0) value.stop c) :
    RecordedAs source c (.patternEntry (.keyed .value computed key value))
  | shorthand {nameSpan : Span} {name : Bytes} {initializer : Option Expr}
    (h : Spans source .bindingElement (nameSpan.start.getD 0)
      (initializer.elim nameSpan.stop Expr.stop) c) :
    RecordedAs source c (.patternEntry (.short nameSpan name initializer))
  | element {e : Expr} (h : Spans source .bindingElement (e.start.getD 0) e.stop c) :
    RecordedAs source c (.patternElement e)
  | rest {e : Expr} (h : Spans source .bindingElement (e.start.getD 0) e.stop c) :
    RecordedAs source c (.restElement e)

/-- A construct with a key spans from the key to the end of the value. -/
theorem spans_keyed (source : Bytes) (kind : ConstructKind) (key value : Expr) :
    Spans source kind (key.start.getD 0) value.stop
      (constructOf source (.keyed kind key value)) := by
  rw [constructOf]
  dsimp only
  split <;> exact ⟨rfl, rfl, rfl⟩

/-- What is made of a node to be recorded has the kind and the extent of the node. -/
theorem recordedAs_constructOf (source : Bytes) {n : Node} {o : Occurrence}
    (h : n.record? = some o) : RecordedAs source (constructOf source o) n := by
  match n, h with
  | .literalEntry (.keyed .value _ key value), rfl => exact .property (spans_keyed _ _ key value)
  | .patternEntry (.keyed .value _ key value), rfl => exact .entry (spans_keyed _ _ key value)
  | .patternEntry (.short _ _ none), rfl => exact .shorthand ⟨rfl, rfl, rfl⟩
  | .patternEntry (.short _ _ (some _)), rfl => exact .shorthand ⟨rfl, rfl, rfl⟩
  | .patternElement _, rfl => exact .element ⟨rfl, rfl, rfl⟩
  | .restElement _, rfl => exact .rest ⟨rfl, rfl, rfl⟩

/-- **The constructs of a script are the nodes to be recorded, in pre-order.** There is a list of
addresses in ascending order that holds exactly the addresses at which the tree has something to
record, and the constructs of the script are what is recorded there, one by one, with the kind and
the extent of the node. -/
theorem constructsOf_enumerates (source : Bytes) (program : Program) :
    ∃ addresses : List (List Nat), addresses.Pairwise (· < ·) ∧
      (∀ address, address ∈ addresses
        ↔ ∃ n, (Node.script program).at? address = some n ∧ n.record?.isSome = true) ∧
      addresses.map (fun address ↦
          (((Node.script program).at? address).bind Node.record?).map (constructOf source))
        = (constructsOf source program).map some ∧
      List.Forall₂ (fun address c ↦
          ∃ n, (Node.script program).at? address = some n ∧ RecordedAs source c n)
        addresses (constructsOf source program) := by
  obtain ⟨addresses, h⟩ := (Node.script program).exists_enumerates
  refine ⟨addresses, h.ascending, fun address ↦ ?_, ?_, ?_⟩
  · rw [h.mem_iff, Node.recordAt, Option.isSome_bind, Option.any_eq_true]
  · have hmap := congrArg (List.map (Option.map (constructOf source))) h.matched
    rw [List.map_map, List.map_map] at hmap
    rw [constructsOf, List.map_map]
    exact hmap
  · have hmatched := h.matched
    rw [← List.forall₂_eq_eq_eq, List.forall₂_map_left_iff, List.forall₂_map_right_iff] at hmatched
    refine List.forall₂_map_right_iff.2 (hmatched.imp fun address o ho ↦ ?_)
    obtain ⟨n, hn, hrecord⟩ := Option.bind_eq_some_iff.1 ho
    exact ⟨n, hn, recordedAs_constructOf source hrecord⟩

/-- A pattern with an array pattern and a rest element in it, and a literal with a shorthand, which
is passed by. -/
def nestedScript : Bytes := utf8 "let \x7ba: [b], ...c\x7d = \x7bd: 1, e\x7d"

/-- An entry of the pattern comes before the element inside it, and both before the rest element and
the literal. -/
theorem constructsOf_enumerates_nestedScript :
    ∃ program addresses, Script.parse nestedScript = .ok program ∧ addresses.Pairwise (· < ·) ∧
      addresses.length = 4 ∧
      [0, 0, 0, 0] ∈ addresses ∧ [0, 0, 0, 0, 1, 0] ∈ addresses ∧ [0, 0, 0, 1] ∈ addresses ∧
      [0, 0, 1, 0] ∈ addresses ∧
      List.Forall₂ (fun address c ↦
          ∃ n, (Node.script program).at? address = some n ∧ RecordedAs nestedScript c n)
        addresses (constructsOf nestedScript program) ∧
      (constructsOf nestedScript program).map (fun c ↦ (c.kind, c.start, c.stop))
        = [(.bindingElement, 5, 11), (.bindingElement, 9, 10), (.bindingElement, 16, 17),
          (.propertyAssignment, 22, 26)] := by
  have hview : ((Script.parse nestedScript).toOption.map fun program ↦
      ((constructsOf nestedScript program).map fun c ↦ (c.kind, c.start, c.stop),
        [[0, 0, 0, 0], [0, 0, 0, 0, 1, 0], [0, 0, 0, 1], [0, 0, 1, 0]].all fun address ↦
          ((Node.script program).recordAt address).isSome))
      = some ([(.bindingElement, 5, 11), (.bindingElement, 9, 10), (.bindingElement, 16, 17),
          (.propertyAssignment, 22, 26)], true) := by decide +kernel
  cases hparse : Script.parse nestedScript with
  | error e =>
    rw [hparse] at hview
    cases hview
  | ok program =>
    rw [hparse] at hview
    obtain ⟨hkinds, hfound⟩ := Prod.mk.inj (Option.some.inj hview)
    obtain ⟨addresses, hascending, hmem, -, hrecorded⟩ :=
      constructsOf_enumerates nestedScript program
    have hin : ∀ address ∈ [[0, 0, 0, 0], [0, 0, 0, 0, 1, 0], [0, 0, 0, 1], [0, 0, 1, 0]],
        address ∈ addresses := by
      intro address haddress
      rw [hmem, ← Option.any_eq_true, ← Option.isSome_bind]
      exact List.all_eq_true.1 hfound address haddress
    have hlength : addresses.length = 4 := by
      rw [hrecorded.length_eq, ← List.length_map (fun c ↦ (c.kind, c.start, c.stop)), hkinds]
      rfl
    exact ⟨program, addresses, rfl, hascending, hlength, hin _ (by simp), hin _ (by simp),
      hin _ (by simp), hin _ (by simp), hrecorded, hkinds⟩

end ColonGap.SourceFile

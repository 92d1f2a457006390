import ColonGap.Construct
import ColonGap.Script.Tree

/-!
# Occurrences of constructs in a tree

`occurrences` lists the constructs of a script in source order: an enclosing construct comes
before everything inside it, and neighbours go from left to right. It follows the tree; what is
written down about an occurrence is decided elsewhere.

What counts is a `key: value` entry of an object literal or object pattern, a shorthand entry of
an object pattern, an element of an array pattern that is no hole, and the rest element of
either pattern. Methods, accessors, shorthands of literals and spreads are passed through.
-/

namespace ColonGap.Script

/-- A construct found in a tree. -/
inductive Occurrence where
  /-- A `key: value` entry. -/
  | keyed (kind : ConstructKind) (key value : Expr)
  /-- An element of a pattern without a key. -/
  | element (span : Span)

mutual

/-- The occurrences in an expression. -/
def Expr.occurrences : Expr → List Occurrence
  | .object _ properties => occurrencesInLiteral properties
  | .objectPattern _ properties rest => occurrencesInPattern properties ++ occurrencesOfRest rest
  | .arrayPattern _ elements rest => occurrencesOfElements elements ++ occurrencesOfRest rest
  | .array _ elements => occurrencesInElements elements
  | .template _ tag _ substitutions => occurrencesIn? tag ++ occurrencesInList substitutions
  | .spread _ inner => inner.occurrences
  | .unary _ _ operand => operand.occurrences
  | .postUpdate _ _ operand => operand.occurrences
  | .binary _ _ left right => left.occurrences ++ right.occurrences
  | .assignment _ _ left right => left.occurrences ++ right.occurrences
  | .conditional _ test consequent alternate =>
    test.occurrences ++ consequent.occurrences ++ alternate.occurrences
  | .sequence _ items => occurrencesInList items
  | .call _ callee arguments => callee.occurrences ++ occurrencesInList arguments
  | .construct _ callee arguments => callee.occurrences ++ occurrencesInList arguments
  | .member _ object _ => object.occurrences
  | .privateMember _ object _ => object.occurrences
  | .index _ object key => object.occurrences ++ key.occurrences
  | .optional _ inner => inner.occurrences
  | .chain _ inner => inner.occurrences
  | .yield _ _ argument => occurrencesIn? argument
  | .await _ argument => argument.occurrences
  | .function body => body.occurrences
  | .arrow _ _ parameters body => parameters.occurrences ++ body.occurrences
  | .classExpr body => body.occurrences
  | .bad _ | .identifier _ _ | .privateName _ _ | .this _ | .super _ | .null _ => []
  | .boolean _ _ | .number _ _ | .string _ _ _ | .regex _ _ _ _ | .metaProperty _ _ => []

/-- The occurrences in an expression that may be absent. -/
def occurrencesIn? : Option Expr → List Occurrence
  | none => []
  | some e => e.occurrences

/-- The occurrences in a list of expressions. -/
def occurrencesInList : List Expr → List Occurrence
  | [] => []
  | e :: items => e.occurrences ++ occurrencesInList items

/-- The occurrences in the elements of an array literal. -/
def occurrencesInElements : List (Option Expr) → List Occurrence
  | [] => []
  | none :: elements => occurrencesInElements elements
  | some e :: elements => e.occurrences ++ occurrencesInElements elements

/-- The elements of an array pattern, each followed by the occurrences in it. -/
def occurrencesOfElements : List (Option Expr) → List Occurrence
  | [] => []
  | none :: elements => occurrencesOfElements elements
  | some e :: elements => .element e.span :: e.occurrences ++ occurrencesOfElements elements

/-- The rest element of a pattern, followed by the occurrences in it. -/
def occurrencesOfRest : Option Expr → List Occurrence
  | none => []
  | some e => .element e.span :: e.occurrences

/-- The entries of an object literal. -/
def occurrencesInLiteral : List Property → List Occurrence
  | [] => []
  | .keyed .value _ key value :: properties =>
    .keyed .propertyAssignment key value :: key.occurrences ++ value.occurrences
      ++ occurrencesInLiteral properties
  | .keyed _ _ key value :: properties =>
    key.occurrences ++ value.occurrences ++ occurrencesInLiteral properties
  | .short _ _ initializer :: properties =>
    occurrencesIn? initializer ++ occurrencesInLiteral properties
  | .spread inner :: properties => inner.occurrences ++ occurrencesInLiteral properties

/-- The entries of an object pattern. -/
def occurrencesInPattern : List Property → List Occurrence
  | [] => []
  | .keyed .value _ key value :: properties =>
    .keyed .bindingElement key value :: key.occurrences ++ value.occurrences
      ++ occurrencesInPattern properties
  | .keyed _ _ key value :: properties =>
    key.occurrences ++ value.occurrences ++ occurrencesInPattern properties
  | .short nameSpan name initializer :: properties =>
    .element (Property.short nameSpan name initializer).span
      :: occurrencesIn? initializer ++ occurrencesInPattern properties
  | .spread inner :: properties => inner.occurrences ++ occurrencesInPattern properties

/-- The occurrences in a binding. -/
def Binding.occurrences : Binding → List Occurrence
  | .mk target initializer => target.occurrences ++ occurrencesIn? initializer

/-- The occurrences in a list of bindings. -/
def occurrencesInBindings : List Binding → List Occurrence
  | [] => []
  | b :: bindings => b.occurrences ++ occurrencesInBindings bindings

/-- The occurrences in formal parameters. -/
def Parameters.occurrences : Parameters → List Occurrence
  | .mk bindings rest => occurrencesInBindings bindings ++ occurrencesIn? rest

/-- The occurrences in a function. -/
def Function.occurrences : Function → List Occurrence
  | .mk _ _ _ _ parameters body => parameters.occurrences ++ occurrencesInStmts body

/-- The occurrences in the body of an arrow function. -/
def ArrowBody.occurrences : ArrowBody → List Occurrence
  | .block body => occurrencesInStmts body
  | .expression value => value.occurrences

/-- The occurrences in a class. -/
def Class.occurrences : Class → List Occurrence
  | .mk _ _ superclass elements => occurrencesIn? superclass ++ occurrencesInMembers elements

/-- The occurrences in a class member. -/
def ClassElement.occurrences : ClassElement → List Occurrence
  | .field _ _ key initializer => key.occurrences ++ occurrencesIn? initializer
  | .method _ _ _ key body => key.occurrences ++ body.occurrences
  | .staticBlock body => occurrencesInStmts body

/-- The occurrences in class members. -/
def occurrencesInMembers : List ClassElement → List Occurrence
  | [] => []
  | m :: members => m.occurrences ++ occurrencesInMembers members

/-- The occurrences in a statement. -/
def Stmt.occurrences : Stmt → List Occurrence
  | .block body => occurrencesInStmts body
  | .expression value => value.occurrences
  | .declaration _ bindings => occurrencesInBindings bindings
  | .function body => body.occurrences
  | .classDeclaration body => body.occurrences
  | .branch test consequent alternate =>
    test.occurrences ++ consequent.occurrences ++ occurrencesInStmt? alternate
  | .doWhile body test => body.occurrences ++ test.occurrences
  | .whileLoop test body => test.occurrences ++ body.occurrences
  | .loop initializer test update body =>
    initializer.occurrences ++ occurrencesIn? test ++ occurrencesIn? update ++ body.occurrences
  | .forIn target source body => target.occurrences ++ source.occurrences ++ body.occurrences
  | .forOf target source body => target.occurrences ++ source.occurrences ++ body.occurrences
  | .returns argument => occurrencesIn? argument
  | .throws argument => argument.occurrences
  | .labelled _ body => body.occurrences
  | .switch discriminant clauses => discriminant.occurrences ++ occurrencesInClauses clauses
  | .tryCatch body handler finalizer =>
    occurrencesInStmts body ++ handler.occurrences ++ occurrencesInStmt? finalizer
  | .scoped object body => object.occurrences ++ body.occurrences
  | .bad | .empty | .debugger | .continues _ | .breaks _ => []

/-- The occurrences in a statement that may be absent. -/
def occurrencesInStmt? : Option Stmt → List Occurrence
  | none => []
  | some s => s.occurrences

/-- The occurrences in a list of statements. -/
def occurrencesInStmts : List Stmt → List Occurrence
  | [] => []
  | s :: items => s.occurrences ++ occurrencesInStmts items

/-- The occurrences in a clause of a `switch`. -/
def Clause.occurrences : Clause → List Occurrence
  | .mk test body => occurrencesIn? test ++ occurrencesInStmts body

/-- The occurrences in the clauses of a `switch`. -/
def occurrencesInClauses : List Clause → List Occurrence
  | [] => []
  | c :: clauses => c.occurrences ++ occurrencesInClauses clauses

/-- The occurrences in the `catch` part of a `try`. -/
def Handler.occurrences : Handler → List Occurrence
  | .absent => []
  | .mk parameter body => occurrencesIn? parameter ++ occurrencesInStmts body

/-- The occurrences in the first part of a `for` head. -/
def LoopInitializer.occurrences : LoopInitializer → List Occurrence
  | .absent => []
  | .expression value => value.occurrences
  | .declaration _ bindings => occurrencesInBindings bindings

/-- The occurrences in the target of a loop. -/
def LoopTarget.occurrences : LoopTarget → List Occurrence
  | .var binding => binding.occurrences
  | .declaration _ target => target.occurrences
  | .expression target => target.occurrences

end

end ColonGap.Script

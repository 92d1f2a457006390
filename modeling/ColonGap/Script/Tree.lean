import ColonGap.Script.Token

/-!
# Syntax trees of scripts

Expressions, patterns, statements and classes, as one family of inductive types. An expression
carries the span of source that it reports as its own. Statements carry none, as nothing asks
where a statement stands.

A span is what the parser attaches and need not be the exact extent of the text: an identifier
with characters beyond ASCII, a postfix operator after a blank or a regular expression with
flags have spans that are off by some bytes. Whatever reads a span has to cope with any span.

Patterns are expressions: an array or object literal that turns out to be the target of an
assignment or a declaration is re-read as `arrayPattern` or `objectPattern`, with its elements
re-read in turn.
-/

namespace ColonGap.Script

/-- A range of offsets, the second one excluded. An expression that starts with `new.target` does
not record where it starts. -/
structure Span where
  start : Option Nat
  stop : Nat
deriving DecidableEq, Repr, Inhabited

/-- What a `key …` entry of an object literal or class is. -/
inductive PropertyKind where
  | value | getter | setter | method
deriving DecidableEq, Repr

/-- The word that opens a declaration of variables. -/
inductive DeclarationKind where
  | var | letKind | constKind
deriving DecidableEq, Repr

/-- A stretch of text of a template literal: the source text, and the text it stands for unless
an escape in it is malformed. -/
structure TemplateText where
  raw : Bytes
  cooked : Option (List UInt16)
deriving DecidableEq, Repr

mutual

/-- Expressions and patterns. -/
inductive Expr where
  /-- What stands in for an expression that could not be read. -/
  | bad (span : Span)
  | identifier (span : Span) (name : Bytes)
  | privateName (span : Span) (name : Bytes)
  | this (span : Span)
  | super (span : Span)
  | null (span : Span)
  | boolean (span : Span) (value : Bool)
  | number (span : Span) (raw : Bytes)
  | string (span : Span) (raw : Bytes) (value : List UInt16)
  | regex (span : Span) (raw pattern flags : Bytes)
  | template (span : Span) (tag : Option Expr) (texts : List TemplateText)
      (substitutions : List Expr)
  | metaProperty (span : Span) (name : Bytes)
  | array (span : Span) (elements : List (Option Expr))
  | object (span : Span) (properties : List Property)
  | arrayPattern (span : Span) (elements : List (Option Expr)) (rest : Option Expr)
  | objectPattern (span : Span) (properties : List Property) (rest : Option Expr)
  | spread (span : Span) (inner : Expr)
  | unary (span : Span) (operator : Token) (operand : Expr)
  /-- `x++` and `x--`. -/
  | postUpdate (span : Span) (operator : Token) (operand : Expr)
  | binary (span : Span) (operator : Token) (left right : Expr)
  | assignment (span : Span) (operator : Token) (left right : Expr)
  | conditional (span : Span) (test consequent alternate : Expr)
  | sequence (span : Span) (items : List Expr)
  | call (span : Span) (callee : Expr) (arguments : List Expr)
  | construct (span : Span) (callee : Expr) (arguments : List Expr)
  | member (span : Span) (object : Expr) (name : Bytes)
  | privateMember (span : Span) (object : Expr) (name : Bytes)
  | index (span : Span) (object key : Expr)
  /-- An operand that is followed by `?.`. -/
  | optional (span : Span) (inner : Expr)
  /-- A chain of accesses that holds a `?.`. -/
  | chain (span : Span) (inner : Expr)
  | yield (span : Span) (delegate : Bool) (argument : Option Expr)
  | await (span : Span) (argument : Expr)
  | function (body : Function)
  | arrow (span : Span) (isAsync : Bool) (parameters : Parameters) (body : ArrowBody)
  | classExpr (body : Class)

/-- An entry of an object literal or object pattern. -/
inductive Property where
  | short (nameSpan : Span) (name : Bytes) (initializer : Option Expr)
  | keyed (kind : PropertyKind) (computed : Bool) (key value : Expr)
  | spread (inner : Expr)

/-- A declared or formal variable: its target, and its initial value if it has one. -/
inductive Binding where
  | mk (target : Expr) (initializer : Option Expr)

/-- The formal parameters of a function. -/
inductive Parameters where
  | mk (bindings : List Binding) (rest : Option Expr)

/-- A function with a body in braces. -/
inductive Function where
  | mk (span : Span) (name : Option Bytes) (isAsync isGenerator : Bool)
      (parameters : Parameters) (body : List Stmt)

/-- What follows the arrow of an arrow function. -/
inductive ArrowBody where
  | block (body : List Stmt)
  | expression (value : Expr)

/-- A class. -/
inductive Class where
  | mk (span : Span) (name : Option Bytes) (superclass : Option Expr)
      (elements : List ClassElement)

/-- A member of a class. -/
inductive ClassElement where
  | field (isStatic computed : Bool) (key : Expr) (initializer : Option Expr)
  | method (kind : PropertyKind) (isStatic computed : Bool) (key : Expr) (body : Function)
  | staticBlock (body : List Stmt)

/-- Statements. -/
inductive Stmt where
  /-- What stands in for a statement that could not be read. -/
  | bad
  | empty
  | debugger
  | block (body : List Stmt)
  | expression (value : Expr)
  | declaration (kind : DeclarationKind) (bindings : List Binding)
  | function (body : Function)
  | classDeclaration (body : Class)
  | branch (test : Expr) (consequent : Stmt) (alternate : Option Stmt)
  | doWhile (body : Stmt) (test : Expr)
  | whileLoop (test : Expr) (body : Stmt)
  | loop (initializer : LoopInitializer) (test update : Option Expr) (body : Stmt)
  | forIn (target : LoopTarget) (source : Expr) (body : Stmt)
  | forOf (target : LoopTarget) (source : Expr) (body : Stmt)
  | continues (label : Option Bytes)
  | breaks (label : Option Bytes)
  | returns (argument : Option Expr)
  | throws (argument : Expr)
  | labelled (label : Bytes) (body : Stmt)
  | switch (discriminant : Expr) (clauses : List Clause)
  | tryCatch (body : List Stmt) (handler : Handler) (finalizer : Option Stmt)
  | scoped (object : Expr) (body : Stmt)

/-- A `case` of a `switch`; the default clause has no test. -/
inductive Clause where
  | mk (test : Option Expr) (body : List Stmt)

/-- The `catch` part of a `try`. -/
inductive Handler where
  | absent
  | mk (parameter : Option Expr) (body : List Stmt)

/-- The first part of a `for (…; …; …)` head. -/
inductive LoopInitializer where
  | absent
  | expression (value : Expr)
  | declaration (kind : DeclarationKind) (bindings : List Binding)

/-- What a `for … in` or `for … of` loop assigns to. -/
inductive LoopTarget where
  | var (binding : Binding)
  | declaration (kind : DeclarationKind) (target : Expr)
  | expression (target : Expr)

end

instance : Inhabited Expr := ⟨.bad default⟩

instance : Inhabited Stmt := ⟨.bad⟩

instance : Inhabited Parameters := ⟨.mk [] none⟩

/-- The span of a function. -/
def Function.span : Function → Span
  | .mk span .. => span

/-- The span of a class. -/
def Class.span : Class → Span
  | .mk span .. => span

/-- The span of an expression. -/
def Expr.span : Expr → Span
  | bad s | identifier s _ | privateName s _ | this s | super s | null s | boolean s _ => s
  | number s _ | string s _ _ | regex s _ _ _ | template s _ _ _ | metaProperty s _ => s
  | array s _ | object s _ | arrayPattern s _ _ | objectPattern s _ _ | spread s _ => s
  | unary s _ _ | postUpdate s _ _ | binary s _ _ _ | assignment s _ _ _ => s
  | conditional s _ _ _ | sequence s _ | call s _ _ | construct s _ _ | member s _ _ => s
  | privateMember s _ _ | index s _ _ | optional s _ | chain s _ | yield s _ _ | await s _ => s
  | arrow s _ _ _ => s
  | function body => body.span
  | classExpr body => body.span

/-- The offset at which an expression starts, if it is recorded. -/
def Expr.start (e : Expr) : Option Nat :=
  e.span.start

/-- The offset at which an expression ends. -/
def Expr.stop (e : Expr) : Nat :=
  e.span.stop

/-- The span of an entry of an object: from its key to the end of its value. -/
def Property.span : Property → Span
  | short nameSpan _ none => nameSpan
  | short nameSpan _ (some e) => ⟨nameSpan.start, e.stop⟩
  | keyed _ _ key value => ⟨key.start, value.stop⟩
  | spread inner => inner.span

/-- The span of a binding: from its target to the end of its initial value. -/
def Binding.span : Binding → Span
  | mk target none => target.span
  | mk target (some e) => ⟨target.start, e.stop⟩

/-- A script is a list of statements. -/
abbrev Program := List Stmt

end ColonGap.Script

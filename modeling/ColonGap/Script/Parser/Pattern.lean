import ColonGap.Script.Parser.Basic

/-!
# Re-reading literals as patterns

An array or object literal that turns out to be a target is re-read as a pattern. There are two
ways to do so. An *assignment target* may be a name, a member access or a pattern of those; a
*binding target* may be a name or a pattern of names. The elements of an array pattern are
assignment targets in both readings, except its rest element.

The re-reading follows the tree and keeps every span. It reports the first thing that cannot be
a target and puts `Expr.bad` in its place.
-/

namespace ColonGap.Script

open Parse

/-- Report an expression as no target, and stand in for it. -/
def refuse (e : Expr) (cause : Cause) : Parse Expr := do
  note e.start cause
  return .bad e.span

/-- No comma may stand between the rest element of an array and its closing bracket. -/
def checkComma (start stop : Nat) : Parse Unit := do
  match Bytes.indexOf? [44] ((← get).source.slice start stop) with
  | some i => note (start + i) .commaAfterRest
  | none => return

/-- An object rest binds a name. -/
def bindingRest (e : Expr) : Parse Expr :=
  match e with
  | .identifier .. => return e
  | _ => refuse e .badBindingRest

mutual

/-- Re-read an expression as an assignment target, which may have a default. -/
def assignTarget (withDefault : Bool) : Expr → Parse Expr
  | .assignment span op left right => do
    if withDefault && op == .assign then
      return .assignment span op (← assignTarget false left) right
    else
      note span.start .badDestructuringTarget
      return .bad span
  | .array span elements => do
    match ← assignElements span elements with
    | some (elements, rest) => return .arrayPattern span elements rest
    | none => return .bad span
  | .object span properties => do
    match ← assignProperties properties with
    | some (properties, rest) => return .objectPattern span properties rest
    | none => return .bad span
  | .arrayPattern span elements rest => return .arrayPattern span elements rest
  | .objectPattern span properties rest => return .objectPattern span properties rest
  | .identifier span name => return .identifier span name
  | .member span object name => return .member span object name
  | .privateMember span object name => return .privateMember span object name
  | .index span object key => return .index span object key
  | e => refuse e .badDestructuringTarget

/-- Re-read the elements of an array literal as assignment targets. -/
def assignElements (span : Span) :
    List (Option Expr) → Parse (Option (List (Option Expr) × Option Expr))
  | [] => return some ([], none)
  | some (.spread _ inner) :: [] => do
    checkComma inner.stop (span.stop - 1)
    return some ([], some (← assignTarget false inner))
  | some (.spread place _) :: _ => do
    note place.start .restNotLast
    return none
  | none :: elements => do
    match ← assignElements span elements with
    | some (elements, rest) => return some (none :: elements, rest)
    | none => return none
  | some element :: elements => do
    let element ← assignTarget true element
    match ← assignElements span elements with
    | some (elements, rest) => return some (some element :: elements, rest)
    | none => return none

/-- Re-read the entries of an object literal as assignment targets. -/
def assignProperties : List Property → Parse (Option (List Property × Option Expr))
  | [] => return some ([], none)
  | .spread inner :: [] => return some ([], some inner)
  | .spread inner :: _ => do
    note inner.start .restNotLast
    return none
  | .short span name initializer :: properties => do
    match ← assignProperties properties with
    | some (properties, rest) => return some (.short span name initializer :: properties, rest)
    | none => return none
  | .keyed .value computed key value :: properties => do
    let value ← assignTarget true value
    match ← assignProperties properties with
    | some (properties, rest) => return some (.keyed .value computed key value :: properties, rest)
    | none => return none
  | .keyed _ _ key _ :: _ => do
    note key.start .badDestructuringTarget
    return none

end

mutual

/-- Re-read an expression as a binding target, which may have a default. The targets inside a
pattern that has been read for an assignment before may have none in arrays. -/
def bindTarget (withDefault : Bool) : Expr → Parse Expr
  | .assignment span op left right => do
    if withDefault && op == .assign then
      return .assignment span op (← bindTarget false left) right
    else
      note span.start (if withDefault then .badDestructuringTarget else .badBindingTarget)
      return .bad span
  | .array span elements => do
    match ← bindElements span elements with
    | some (elements, rest) => return .arrayPattern span elements rest
    | none => return .bad span
  | .object span properties => do
    match ← bindProperties properties with
    | some (properties, rest) => return .objectPattern span properties rest
    | none => return .bad span
  | .arrayPattern span elements rest => do
    let elements ← rebindElements elements
    let rest ← rebindRest rest
    return .arrayPattern span elements rest
  | .objectPattern span properties rest => do
    let properties ← rebindProperties properties
    match rest with
    | some rest => return .objectPattern span properties (some (← bindingRest rest))
    | none => return .objectPattern span properties none
  | .identifier span name => do
    if (← scope).allowAwait && name == utf8 "await" then
      refuse (.identifier span name) .badBindingTarget
    else return .identifier span name
  | e => refuse e .badBindingTarget

/-- Re-read the elements of an array literal for a binding. -/
def bindElements (span : Span) :
    List (Option Expr) → Parse (Option (List (Option Expr) × Option Expr))
  | [] => return some ([], none)
  | some (.spread _ inner) :: [] => do
    checkComma inner.stop (span.stop - 1)
    return some ([], some (← bindTarget false inner))
  | some (.spread place _) :: _ => do
    note place.start .restNotLast
    return none
  | none :: elements => do
    match ← bindElements span elements with
    | some (elements, rest) => return some (none :: elements, rest)
    | none => return none
  | some element :: elements => do
    let element ← assignTarget true element
    match ← bindElements span elements with
    | some (elements, rest) => return some (some element :: elements, rest)
    | none => return none

/-- Re-read the entries of an object literal for a binding. -/
def bindProperties : List Property → Parse (Option (List Property × Option Expr))
  | [] => return some ([], none)
  | .spread inner :: [] => return some ([], some (← bindingRest inner))
  | .spread inner :: _ => do
    note inner.start .restNotLast
    return none
  | .short span name initializer :: properties => do
    match ← bindProperties properties with
    | some (properties, rest) => return some (.short span name initializer :: properties, rest)
    | none => return none
  | .keyed .value computed key value :: properties => do
    let value ← bindTarget true value
    match ← bindProperties properties with
    | some (properties, rest) => return some (.keyed .value computed key value :: properties, rest)
    | none => return none
  | .keyed _ _ key _ :: _ => do
    note key.start .badBindingTarget
    return none

/-- Re-read the elements of an array pattern for a binding. -/
def rebindElements : List (Option Expr) → Parse (List (Option Expr))
  | [] => return []
  | none :: elements => return none :: (← rebindElements elements)
  | some element :: elements => do
    let element ← bindTarget false element
    return some element :: (← rebindElements elements)

/-- Re-read the rest element of an array pattern for a binding. -/
def rebindRest : Option Expr → Parse (Option Expr)
  | none => return none
  | some e => return some (← bindTarget false e)

/-- Re-read the entries of an object pattern for a binding. -/
def rebindProperties : List Property → Parse (List Property)
  | [] => return []
  | .keyed kind computed key value :: properties => do
    let value ← bindTarget true value
    return .keyed kind computed key value :: (← rebindProperties properties)
  | property :: properties => return property :: (← rebindProperties properties)

end

/-- Re-read an item of a parenthesised list as a formal parameter. -/
def asParameter : Expr → Parse Binding
  | .assignment span op left right => do
    if op == .assign then return .mk (← bindTarget false left) (some right)
    else
      note span.start .badDestructuringTarget
      return .mk (.bad span) none
  | e => return .mk (← bindTarget false e) none

/-- Re-read the items of a parenthesised list as formal parameters. -/
def asParameters (items : List Expr) : Parse Parameters :=
  return .mk (← items.mapM asParameter) none

end ColonGap.Script

import ColonGap.Text.Bytes

/-!
# Paths

A path is a text of names with slashes between them. Cleaning a path resolves what can be
resolved from the text alone: it drops empty names and `.`, and lets `..` take back the name
before it.
-/

namespace ColonGap

namespace Path

/-- The name of the directory itself. -/
def here : Bytes := utf8 "."

/-- The name of the directory above. -/
def above : Bytes := utf8 ".."

/-- Whether a path starts at the root. -/
def isRooted (p : Bytes) : Bool :=
  p.head? == some 47

/-- The names of a path; empty ones show repeated slashes and slashes at the ends. -/
def names (p : Bytes) : List Bytes :=
  p.splitOn 47

/-- Add a name to a cleaned stack of names, of which the last one comes first. There is nothing
above the root. -/
def push (rooted : Bool) (stack : List Bytes) (name : Bytes) : List Bytes :=
  if name.isEmpty || name == here then stack
  else if name == above then
    match stack with
    | [] => if rooted then [] else [above]
    | top :: rest => if top == above then above :: top :: rest else rest
  else name :: stack

/-- The shortest path of the same meaning that the text alone allows. -/
def clean (p : Bytes) : Bytes :=
  let body := Bytes.join [47] ((names p).foldl (push (isRooted p)) []).reverse
  if isRooted p then 47 :: body else if body.isEmpty then here else body

/-- The path of an entry of the directory with the given clean path. -/
def child (directory name : Bytes) : Bytes :=
  if directory == here then name
  else if directory.getLast? == some 47 then directory ++ name
  else directory ++ 47 :: name

/-- The ending of the last name of a path from its last point on; empty without a point. -/
def extension (p : Bytes) : Bytes :=
  let name := p.reverse.takeWhile (· != 47)
  if name.contains 46 then 46 :: (name.takeWhile (· != 46)).reverse else []

end Path

end ColonGap

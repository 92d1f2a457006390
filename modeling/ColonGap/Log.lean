import ColonGap.OptionValue

/-!
# The log

A log is a list of entries, and an entry is a level, a message and named values. It is written
with one line for each entry of at least a given level.

A value stands behind its name as it is if all its characters are plain, and otherwise between
double quotes. A value of several lines stands on lines of its own, each with a bar in front.
-/

namespace ColonGap

namespace Log

/-- The importance of an entry. -/
inductive Level where
  | debug | warn | error
deriving DecidableEq, Repr

namespace Level

/-- The rank of a level. -/
def rank : Level → Nat
  | debug => 0
  | warn => 1
  | error => 2

/-- The mark of a level, filled up to the width of the longest one. -/
def mark : Level → String
  | debug => "[DEBUG]"
  | warn => "[WARN] "
  | error => "[ERROR]"

/-- The least level that is written. Being verbose wins over being quiet. -/
def threshold (quiet verbose : Bool) : Level :=
  if verbose then debug else if quiet then error else warn

end Level

/-- A value in an entry. -/
inductive Value where
  /-- A text, which is quoted if it is empty. -/
  | text (value : Bytes)
  /-- What went wrong, which is not quoted if it is empty. -/
  | reason (value : Bytes)
  | count (value : Nat)
  | option (value : OptionValue)

/-- One entry. -/
structure Entry where
  level : Level
  message : String
  fields : List (String × Value)

/-! ### Values -/

/-- Whether a character may stand in a value without quotes: `-` to `~`. -/
def isPlain (code : Nat) : Bool :=
  0x2D ≤ code && code ≤ 0x7E

/-- Whether a character keeps a text from being written as it is. -/
def needsEscape (code : Nat) : Bool :=
  !isGraphic code || code == 34

/-- The escape of a character that does not print. -/
def escapeCode (code : Nat) : Bytes :=
  match Quoted.controlLetter? code with
  | some letter => [92, letter]
  | none =>
    if code < 0x20 then utf8 "\\x" ++ hexDigits 2 code
    else if code < 0x10000 then utf8 "\\u" ++ hexDigits 4 code
    else utf8 "\\U" ++ hexDigits 8 code

/-- A character of a text that needs escapes; a quote is escaped if `quotes` says so. -/
def escapeScalar (quotes : Bool) (c : Scalar) : Bytes :=
  if quotes && c.code == 34 then [92, 34]
  else if isGraphic c.code then Utf8.encode c.code
  else escapeCode c.code

/-- A text with its unprintable characters escaped. A text without such characters and without
quotes is kept byte for byte. -/
def escaped (quotes : Bool) (s : Bytes) : Bytes :=
  let cs := Utf8.scalars s
  if cs.any fun c ↦ needsEscape c.code then cs.flatMap (escapeScalar quotes) else s

/-- The lines of a text; an empty one at the end is left out. -/
def linesOf (s : Bytes) : List Bytes :=
  let lines := s.splitOn 10
  if lines.getLast? == some [] then lines.dropLast else lines

/-- An item of a list: in quotes if it has spaces, tabs or line ends. -/
def listItem (v : OptionValue) : Bytes :=
  let s := v.render
  if s.any fun b ↦ b == 32 || b == 9 || b == 10 || b == 13 then quoted s else s

/-- The text of a value, and whether it is written without quotes whatever it holds. -/
def Value.written : Value → Bytes × Bool
  | .text s | .option (.text s) => if s.isEmpty then (utf8 "\"\"", true) else (s, false)
  | .reason s => (s, false)
  | .count n => (decimal n, false)
  | .option (.list items) => (91 :: Bytes.join (utf8 ", ") (items.map listItem) ++ [93], true)
  | .option v => (v.render, false)

/-- A named value as it stands in an entry. -/
def field (name : String) (value : Value) : Bytes :=
  let (s, plain) := value.written
  if s.contains 10 then
    utf8 "\n  " ++ utf8 name ++ utf8 "=\n"
      ++ (linesOf s).flatMap (fun line ↦ utf8 "  | " ++ escaped false line ++ utf8 "\n")
      ++ utf8 "  "
  else if plain || (Utf8.scalars s).all fun c ↦ isPlain c.code then
    utf8 " " ++ utf8 name ++ utf8 "=" ++ s
  else utf8 " " ++ utf8 name ++ utf8 "=\"" ++ escaped true s ++ utf8 "\""

/-! ### Entries -/

/-- The name of the program in its log. -/
def programName : String := "colonlint"

/-- An entry as it is written. -/
def Entry.render (e : Entry) : Bytes :=
  utf8 e.level.mark ++ utf8 " " ++ utf8 programName ++ utf8 ": " ++ utf8 e.message ++ utf8 ":"
    ++ e.fields.flatMap (fun (name, value) ↦ field name value) ++ utf8 "\n"

/-- The entries of at least the given level as they are written. -/
def render (least : Level) (entries : List Entry) : Bytes :=
  (entries.filter fun e ↦ least.rank ≤ e.level.rank).flatMap Entry.render

/-- An entry that only a verbose log shows. -/
def debug (message : String) (fields : List (String × Value)) : Entry :=
  ⟨.debug, message, fields⟩

/-- An entry about something dubious. -/
def warn (message : String) (fields : List (String × Value)) : Entry :=
  ⟨.warn, message, fields⟩

/-- An entry about something that went wrong. -/
def error (message : String) (fields : List (String × Value)) : Entry :=
  ⟨.error, message, fields⟩

end Log

end ColonGap

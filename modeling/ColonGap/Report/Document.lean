import ColonGap.Text.Quoted

/-!
# Structured documents

The two machine-readable reports are JSON documents with an indentation of two blanks. The
characters `<`, `>` and `&` and the separators U+2028 and U+2029 are written as escapes, so that
a report can stand inside a web page. A byte that is not UTF-8 becomes the replacement
character.
-/

namespace ColonGap.Report

/-- A JSON value whose fields are in the order in which they are written. -/
inductive Document where
  | null
  | number (value : Int)
  | text (value : Bytes)
  | list (items : List Document)
  | record (fields : List (String × Document))

namespace Document

/-- The form of one character inside a text. -/
def escapeScalar (c : Scalar) : Bytes :=
  if c.isMalformed then utf8 "\\ufffd"
  else
    match c.code with
    | 34 => utf8 "\\\""
    | 92 => utf8 "\\\\"
    | 8 => utf8 "\\b"
    | 12 => utf8 "\\f"
    | 10 => utf8 "\\n"
    | 13 => utf8 "\\r"
    | 9 => utf8 "\\t"
    | code =>
      if code < 0x20 || code == 60 || code == 62 || code == 38 || code == 0x2028
          || code == 0x2029 then
        utf8 "\\u" ++ hexDigits 4 code
      else Utf8.encode code

/-- A text between double quotes. -/
def renderText (s : Bytes) : Bytes :=
  34 :: (Utf8.scalars s).flatMap escapeScalar ++ [34]

/-- A new line with the indentation of a level. -/
def newline (level : Nat) : Bytes :=
  10 :: List.replicate (2 * level) 32

mutual

/-- The text of a document that stands at a level of indentation. -/
def render (level : Nat) : Document → Bytes
  | null => utf8 "null"
  | number n => signedDecimal n
  | text s => renderText s
  | list [] => utf8 "[]"
  | list (item :: items) =>
    91 :: newline (level + 1) ++ render (level + 1) item ++ renderItems (level + 1) items
      ++ newline level ++ [93]
  | record [] => [123, 125]
  | record ((name, value) :: fields) =>
    123 :: newline (level + 1) ++ renderText (utf8 name) ++ utf8 ": " ++ render (level + 1) value
      ++ renderFields (level + 1) fields ++ newline level ++ [125]

/-- The items of a list behind the first one. -/
def renderItems (level : Nat) : List Document → Bytes
  | [] => []
  | item :: items => 44 :: newline level ++ render level item ++ renderItems level items

/-- The fields of a record behind the first one. -/
def renderFields (level : Nat) : List (String × Document) → Bytes
  | [] => []
  | (name, value) :: fields =>
    44 :: newline level ++ renderText (utf8 name) ++ utf8 ": " ++ render level value
      ++ renderFields level fields

end

end Document

end ColonGap.Report

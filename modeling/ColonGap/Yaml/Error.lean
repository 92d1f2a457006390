import ColonGap.OptionValue
import ColonGap.Text.Quoted

/-!
# What can be wrong with a YAML document

A document fails while its characters are read, while they are split into tokens, while the
tokens are put together to nodes, or while the nodes are decoded. The first three name a line:
that of the construct around the fault or, if that construct starts on the first line, that of
the fault itself. Lines are counted from zero while tokens are put together, so a fault there
seems to lie one line higher, and a line of zero is not mentioned at all.
-/

namespace ColonGap.Yaml

/-- A place in a document, everything counted from zero. -/
structure Mark where
  index : Nat
  line : Nat
  column : Nat
deriving DecidableEq, Repr, Inhabited

/-- What is wrong in the text of a document. -/
inductive Problem where
  -- characters
  | leadingOctet | incompleteOctets | trailingOctet | overlongOctets | invalidCharacter
  | incompleteUnit | lowSurrogate | incompletePair | missingLowSurrogate | controlCharacter
  -- tokens
  | noToken | missingColon | sequenceNotAllowed | keyNotAllowed | valueNotAllowed
  | missingDirectiveName | directiveNameEnd | unknownDirective | missingLineEnd
  | missingVersionPoint | longVersion | missingVersion | missingBlank | missingBlankOrLineEnd
  | anchorEnd | missingTagEnd | missingTagMark | missingTagText | missingTagEscape
  | escapedLeadingOctet | escapedTrailingOctet | zeroIndentation | tabIndentation
  | documentInQuotes | endInQuotes | unknownEscape | missingHexDigit | escapedCharacter
  | tabInScalar | tooDeep
  -- nodes
  | missingDocumentStart | repeatedVersion | unsupportedVersion | repeatedTagHandle
  | unknownTagHandle | missingContent | missingDash | missingKey | missingSequenceEnd
  | missingMappingEnd
deriving DecidableEq, Repr

/-- The greatest number of nested collections. -/
def maxDepth : Nat := 10000

/-- The wording of a problem. -/
def Problem.message : Problem → String
  | leadingOctet => "invalid leading UTF-8 octet"
  | incompleteOctets => "incomplete UTF-8 octet sequence"
  | trailingOctet => "invalid trailing UTF-8 octet"
  | overlongOctets => "invalid length of a UTF-8 sequence"
  | invalidCharacter => "invalid Unicode character"
  | incompleteUnit => "incomplete UTF-16 character"
  | lowSurrogate => "unexpected low surrogate area"
  | incompletePair => "incomplete UTF-16 surrogate pair"
  | missingLowSurrogate => "expected low surrogate area"
  | controlCharacter => "control characters are not allowed"
  | noToken => "found character that cannot start any token"
  | missingColon => "could not find expected ':'"
  | sequenceNotAllowed => "block sequence entries are not allowed in this context"
  | keyNotAllowed => "mapping keys are not allowed in this context"
  | valueNotAllowed => "mapping values are not allowed in this context"
  | missingDirectiveName => "could not find expected directive name"
  | directiveNameEnd => "found unexpected non-alphabetical character"
  | unknownDirective => "found unknown directive name"
  | missingLineEnd => "did not find expected comment or line break"
  | missingVersionPoint => "did not find expected digit or '.' character"
  | longVersion => "found extremely long version number"
  | missingVersion => "did not find expected version number"
  | missingBlank => "did not find expected whitespace"
  | missingBlankOrLineEnd => "did not find expected whitespace or line break"
  | anchorEnd => "did not find expected alphabetic or numeric character"
  | missingTagEnd => "did not find the expected '>'"
  | missingTagMark => "did not find expected '!'"
  | missingTagText => "did not find expected tag URI"
  | missingTagEscape => "did not find URI escaped octet"
  | escapedLeadingOctet => "found an incorrect leading UTF-8 octet"
  | escapedTrailingOctet => "found an incorrect trailing UTF-8 octet"
  | zeroIndentation => "found an indentation indicator equal to 0"
  | tabIndentation => "found a tab character where an indentation space is expected"
  | documentInQuotes => "found unexpected document indicator"
  | endInQuotes => "found unexpected end of stream"
  | unknownEscape => "found unknown escape character"
  | missingHexDigit => "did not find expected hexdecimal number"
  | escapedCharacter => "found invalid Unicode character escape code"
  | tabInScalar => "found a tab character that violates indentation"
  | tooDeep => "exceeded max depth of 10000"
  | missingDocumentStart => "did not find expected <document start>"
  | repeatedVersion => "found duplicate %YAML directive"
  | unsupportedVersion => "found incompatible YAML document"
  | repeatedTagHandle => "found duplicate %TAG directive"
  | unknownTagHandle => "found undefined tag handle"
  | missingContent => "did not find expected node content"
  | missingDash => "did not find expected '-' indicator"
  | missingKey => "did not find expected key"
  | missingSequenceEnd => "did not find expected ',' or ']'"
  | missingMappingEnd => "did not find expected ',' or '\x7d'"

/-- A scalar or collection that does not fit what it is decoded into, or a key given twice. -/
inductive Mismatch where
  /-- A node with a tag and a text, which does not fit a type. -/
  | shape (line : Nat) (tag : Bytes) (text : Bytes) (type : Bytes)
  | repeatedKey (line : Nat) (key : Bytes) (first : Nat)
  | repeatedField (line : Nat) (field : Bytes) (type : Bytes)
deriving DecidableEq, Repr

/-- A text of which only the start is shown if it is long. -/
def excerpt (s : Bytes) : Bytes :=
  if 10 < s.length then s.take 7 ++ utf8 "..." else s

/-- The wording of a mismatch. -/
def Mismatch.message : Mismatch → Bytes
  | shape line tag text type =>
    let shown := if tag == utf8 "!!seq" || tag == utf8 "!!map" then text
      else utf8 " \x60" ++ excerpt text ++ utf8 "\x60"
    utf8 "line " ++ decimal line ++ utf8 ": cannot unmarshal " ++ tag ++ shown ++ utf8 " into "
      ++ type
  | repeatedKey line key first =>
    utf8 "line " ++ decimal line ++ utf8 ": mapping key " ++ quoted key
      ++ utf8 " already defined at line " ++ decimal first
  | repeatedField line field type =>
    utf8 "line " ++ decimal line ++ utf8 ": field " ++ field ++ utf8 " already set in type "
      ++ type

/-- Why a document could not be read. -/
inductive Fault where
  /-- A fault of the encoding. -/
  | encoding (problem : Problem)
  /-- A fault between tokens, with the place of the construct around it and its own. -/
  | token (problem : Problem) (around place : Mark)
  /-- A fault between nodes, with the place of the collection around it, if any, and its own. -/
  | node (problem : Problem) (around : Option Mark) (place : Mark)
  | unknownAnchor (name : Bytes)
  | selfReference (name : Bytes)
  | tooManyAliases
  /-- A scalar that is no value of the type its tag names. -/
  | wrongTag (found : Bytes) (text : Bytes) (tag : Bytes)
  | wrongBase64
  | wrongMerge
  /-- A collection as the key of a mapping. -/
  | collectionKey (key : OptionValue)
  /-- A collection as the key of a mapping into which another one is merged. -/
  | mergedCollectionKey (key : OptionValue)
  /-- Nodes that do not fit, in the order in which they were found. -/
  | mismatches (items : List Mismatch)
deriving Repr

/-- The line that is named for a fault: the first of the given lines that is not zero. -/
def lineText (shift around place : Nat) : Bytes :=
  let line := if around != 0 then around + shift else if place != 0 then place + shift else 0
  if line == 0 then [] else utf8 "line " ++ decimal line ++ utf8 ": "

/-- The wording of a fault. -/
def Fault.message : Fault → Bytes
  | encoding problem => utf8 "yaml: " ++ utf8 problem.message
  | token problem around place =>
    utf8 "yaml: " ++ lineText 1 around.line place.line ++ utf8 problem.message
  | node problem around place =>
    utf8 "yaml: " ++ lineText 0 ((around.map (·.line)).getD 0) place.line
      ++ utf8 problem.message
  | unknownAnchor name => utf8 "yaml: unknown anchor '" ++ name ++ utf8 "' referenced"
  | selfReference name => utf8 "yaml: anchor '" ++ name ++ utf8 "' value contains itself"
  | tooManyAliases => utf8 "yaml: document contains excessive aliasing"
  | wrongTag found text tag =>
    utf8 "yaml: cannot decode " ++ found ++ utf8 " \x60" ++ text ++ utf8 "\x60 as a " ++ tag
  | wrongBase64 => utf8 "yaml: !!binary value contains invalid base64 data"
  | wrongMerge => utf8 "yaml: map merge requires map or sequence of maps as the value"
  | collectionKey key => utf8 "yaml: invalid map key: " ++ key.literal
  | mergedCollectionKey key =>
    utf8 "yaml: runtime error: hash of unhashable type " ++ key.typeName
  | mismatches items =>
    utf8 "yaml: unmarshal errors:\n  " ++ Bytes.join (utf8 "\n  ") (items.map Mismatch.message)

end ColonGap.Yaml

import ColonGap.Yaml.Error

/-!
# Tokens of a YAML document

Besides the marks that stand in the text there are tokens for what indentation opens and closes.
-/

namespace ColonGap.Yaml

/-- How a scalar is written. -/
inductive ScalarStyle where
  | plain | quoted | block
deriving DecidableEq, Repr

/-- What a token is. -/
inductive TokenKind where
  | streamStart | streamEnd
  | version (major minor : Nat)
  | tagHandle (handle replacement : Bytes)
  | documentStart | documentEnd
  | blockSequenceStart | blockMappingStart | blockEnd
  | flowSequenceStart | flowSequenceEnd | flowMappingStart | flowMappingEnd
  | blockEntry | flowEntry | key | value
  | reference (name : Bytes)
  | anchor (name : Bytes)
  | tag (handle suffix : Bytes)
  | scalar (text : Bytes) (style : ScalarStyle)
deriving DecidableEq, Repr

/-- A token and where it stands. -/
structure Token where
  kind : TokenKind
  start : Mark
  stop : Mark
deriving DecidableEq, Repr

end ColonGap.Yaml

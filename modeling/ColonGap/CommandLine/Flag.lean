import ColonGap.Text.Quoted

/-!
# Flags

A flag has a name, and some flags have a letter too. A switch is true, false or not given; the
other flags take a text. Flags and other arguments may be mixed, and `--` ends the flags.

Flags are read one after another into a list of values in the order in which they were given,
so that the last value of a flag can count, or all of them.
-/

namespace ColonGap

namespace CommandLine

/-- A flag. -/
inductive Flag where
  | fix | diff | format | config | rule | quiet | verbose | long | help | version
deriving DecidableEq, Repr

namespace Flag

/-- The name of a flag, which stands behind `--`. -/
def name : Flag → String
  | fix => "fix"
  | diff => "diff"
  | format => "format"
  | config => "config"
  | rule => "rule"
  | quiet => "quiet"
  | verbose => "verbose"
  | long => "long"
  | help => "help"
  | version => "version"

/-- The letter of a flag, which stands behind `-`. -/
def letter? : Flag → Option UInt8
  | format => some 102
  | config => some 99
  | quiet => some 113
  | verbose => some 118
  | long => some 108
  | help => some 104
  | fix | diff | rule | version => none

/-- Whether a flag is a switch. -/
def isSwitch : Flag → Bool
  | format | config | rule => false
  | fix | diff | quiet | verbose | long | help | version => true

/-- A flag as a message names it. -/
def display (f : Flag) : Bytes :=
  match f.letter? with
  | some letter => 45 :: letter :: utf8 ", --" ++ utf8 f.name
  | none => utf8 "--" ++ utf8 f.name

end Flag

/-- What is wrong with a flag. -/
inductive FlagError where
  /-- Two dashes are followed by something that is no name. -/
  | malformed (argument : Bytes)
  | unknown (name : Bytes)
  /-- No flag has this letter; the group is what was left of the letters from it on. -/
  | unknownLetter (letter : UInt8) (group : Bytes)
  | missingValue (argument : Bytes)
  | missingLetterValue (letter : UInt8) (group : Bytes)
  /-- The value of a switch is neither true nor false. -/
  | invalidValue (flag : Flag) (value : Bytes)
deriving DecidableEq, Repr

/-- The wording of a flag error. -/
def FlagError.message : FlagError → Bytes
  | malformed argument => utf8 "bad flag syntax: " ++ argument
  | unknown name => utf8 "unknown flag: --" ++ name
  | unknownLetter letter group =>
    utf8 "unknown shorthand flag: " ++ quotedChar letter.toNat ++ utf8 " in -" ++ group
  | missingValue argument => utf8 "flag needs an argument: " ++ argument
  | missingLetterValue letter group =>
    utf8 "flag needs an argument: " ++ quotedChar letter.toNat ++ utf8 " in -" ++ group
  | invalidValue flag value =>
    utf8 "invalid argument " ++ quoted value ++ utf8 " for " ++ quoted flag.display
      ++ utf8 " flag: strconv.ParseBool: parsing " ++ quoted value ++ utf8 ": invalid syntax"

/-- A flag with a value. -/
structure Given where
  flag : Flag
  value : Bytes
deriving DecidableEq, Repr

/-- Arguments of which the flags have been read. -/
structure Arguments where
  given : List Given
  /-- The arguments that are not flags. -/
  others : List Bytes

/-- The truth value of a text. -/
def truth? (s : Bytes) : Option Bool :=
  if ["1", "t", "T", "TRUE", "true", "True"].any fun word ↦ utf8 word == s then some true
  else if ["0", "f", "F", "FALSE", "false", "False"].any fun word ↦ utf8 word == s then some false
  else none

/-- Give a value to a flag. -/
def give (flag : Flag) (value : Bytes) : Except FlagError Given :=
  if flag.isSwitch && (truth? value).isNone then .error (.invalidValue flag value)
  else .ok ⟨flag, value⟩

/-- The value of a switch without a value. -/
def switchedOn : Bytes := utf8 "true"

/-- Read a group of letters. The next argument, if there is one, is the value of a flag at the
end of the group; the result tells whether it was taken. Groups that start with `test.` are
meant for test runners and passed over. -/
def letters (flags : List Flag) (next : Option Bytes) :
    (group : Bytes) → Except FlagError (List Given × Bool)
  | [] => .ok ([], false)
  | letter :: rest =>
    if (utf8 "test.").isPrefixOf (letter :: rest) then .ok ([], false)
    else
      match flags.find? fun f ↦ f.letter? == some letter with
      | none => .error (.unknownLetter letter (letter :: rest))
      | some flag =>
        if rest.head? == some 61 && rest.length > 1 then
          (give flag (rest.drop 1)).map fun g ↦ ([g], false)
        else if flag.isSwitch then do
          let g ← give flag switchedOn
          let (more, taken) ← letters flags next rest
          return (g :: more, taken)
        else if !rest.isEmpty then (give flag rest).map fun g ↦ ([g], false)
        else
          match next with
          | some value => (give flag value).map fun g ↦ ([g], true)
          | none => .error (.missingLetterValue letter [letter])

/-- Read a flag with its name, which stands behind two dashes. The result tells whether the next
argument was taken for its value. -/
def named (flags : List Flag) (next : Option Bytes) (body : Bytes) :
    Except FlagError (Given × Bool) :=
  if body.head? == some 45 || body.head? == some 61 then .error (.malformed (utf8 "--" ++ body))
  else
    let (name, value?) := match body.cut? 61 with
      | some (name, value) => (name, some value)
      | none => (body, none)
    match flags.find? fun f ↦ utf8 f.name == name with
    | none => .error (.unknown name)
    | some flag =>
      match value? with
      | some value => (give flag value).map (·, false)
      | none =>
        if flag.isSwitch then (give flag switchedOn).map (·, false)
        else
          match next with
          | some value => (give flag value).map (·, true)
          | none => .error (.missingValue (utf8 "--" ++ body))

/-- Read arguments; `taken` tells whether the first one is the value of the flag before it. -/
def readArguments (flags : List Flag) : (taken : Bool) → List Bytes → Except FlagError Arguments
  | _, [] => .ok ⟨[], []⟩
  | true, _ :: rest => readArguments flags false rest
  | false, argument :: rest =>
    match argument with
    | [45, 45] => .ok ⟨[], rest⟩
    | 45 :: 45 :: body => do
      let (g, taken) ← named flags rest.head? body
      let more ← readArguments flags taken rest
      return { more with given := g :: more.given }
    | 45 :: letter :: group => do
      let (gs, taken) ← letters flags rest.head? (letter :: group)
      let more ← readArguments flags taken rest
      return { more with given := gs ++ more.given }
    | _ => do
      let more ← readArguments flags false rest
      return { more with others := argument :: more.others }

namespace Arguments

/-- All values of a flag in order. -/
def values (a : Arguments) (flag : Flag) : List Bytes :=
  (a.given.filter (·.flag == flag)).map (·.value)

/-- The last value of a flag; the empty text if it was not given. -/
def text (a : Arguments) (flag : Flag) : Bytes :=
  (a.values flag).getLastD []

/-- Whether a switch is on. -/
def isOn (a : Arguments) (flag : Flag) : Bool :=
  (truth? (a.text flag)).getD false

end Arguments

end CommandLine

end ColonGap

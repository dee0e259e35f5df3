import Reroute.Keyed
import Reroute.Number.Literal
import Reroute.Text.Quoted

/-!
# Flags

Arguments of a command line. Flags come first, each with one dash or two, its value after an equals
sign or, unless the flag is a switch, in the next argument. The first argument that is no flag ends
them, and so does a double dash alone, which is dropped. If a flag is given twice, the last value
counts.

## Main definitions

* `Flag`, `FlagValue` — a flag with its value by default
* `Flag.areDefinable` — whether flags may be defined together
* `Argument` — what an argument says
* `FlagValues` — values by the names of their flags
* `FlagError` — what is wrong with arguments
* `Flag.parse` — the values that arguments give, and the arguments after the flags
-/

namespace Reroute

/-- The value of a flag. -/
inductive FlagValue where
  | text (value : Text)
  | int (value : Int)
  /-- The value of a switch. -/
  | switch (value : Bool)
deriving DecidableEq, Repr

/-- A flag. Values given for it are of the same kind as the one by default. -/
structure Flag where
  name : Text
  default : FlagValue
  usage : Text
deriving DecidableEq, Repr

namespace FlagValue

/-- The value as a text. -/
def render : FlagValue → Text
  | text value => value
  | int value => Text.ofInt value
  | switch value => Text.ofBool value

/-- Whether a value is the one that its kind has if nothing is said. -/
def isZero : FlagValue → Bool
  | text value => value = []
  | int value => value = 0
  | switch value => !value

/-- The spellings of the values of a switch. -/
def switchSpellings : List (Text × Bool) := [
  ("1", true), ("t", true), ("T", true), ("TRUE", true), ("true", true), ("True", true),
  ("0", false), ("f", false), ("F", false), ("FALSE", false), ("false", false), ("False", false)]

/-- The value of the same kind that a text spells. -/
def read (kind : FlagValue) (t : Text) : Except Literal.Failure FlagValue :=
  match kind with
  | text _ => .ok (text t)
  | int _ => (Literal.readInt (Text.chars t)).map int
  | switch _ =>
    match switchSpellings.lookup t with
    | some value => .ok (switch value)
    | none => .error .malformed

end FlagValue

/-! ### Arguments -/

/-- What an argument says. -/
inductive Argument where
  /-- The argument is no flag. -/
  | plain
  /-- The flags end here. -/
  | terminator
  | malformed
  | flag (name : Text) (value? : Option Text)
deriving DecidableEq, Repr

namespace Argument

/-- The byte before the name of a flag. -/
def dash : UInt8 := Text.byte '-'

/-- The byte between name and value. -/
def equals : UInt8 := Text.byte '='

/-- An argument without its dashes. -/
def ofName : Text → Argument
  | [] => malformed
  | b :: rest =>
    if b = dash || b = equals then malformed
    else
      flag (b :: rest.takeWhile (· != equals)) <|
        match rest.dropWhile (· != equals) with
        | [] => none
        | _ :: value => some value

/-- What an argument says. -/
def ofText : Text → Argument
  | [] | [_] => plain
  | a :: b :: rest =>
    if a ≠ dash then plain
    else if b ≠ dash then ofName (b :: rest)
    else if rest = [] then terminator
    else ofName rest

end Argument

/-! ### Values -/

/-- Values by the names of their flags. -/
abbrev FlagValues := Keyed Text FlagValue

namespace FlagValues

/-- The text under a name. -/
def text (values : FlagValues) (name : Text) : Text :=
  match values.find? name with
  | some (.text value) => value
  | _ => []

/-- The number under a name. -/
def int (values : FlagValues) (name : Text) : Int :=
  match values.find? name with
  | some (.int value) => value
  | _ => 0

/-- The switch under a name. -/
def switch (values : FlagValues) (name : Text) : Bool :=
  match values.find? name with
  | some (.switch value) => value
  | _ => false

end FlagValues

/-- What is wrong with arguments. -/
inductive FlagError where
  /-- Nothing: the arguments ask for help. -/
  | help
  | badSyntax (argument : Text)
  | undefined (name : Text)
  | needsValue (name : Text)
  | badValue (value name : Text) (cause : Literal.Failure)
  | badSwitch (value name : Text)
deriving DecidableEq, Repr

/-- How it is worded that a text is no number. -/
def Literal.Failure.message : Literal.Failure → Text
  | malformed => "parse error"
  | outOfRange => "value out of range"

/-- The message of a flag error. -/
def FlagError.message : FlagError → Text
  | help => "flag: help requested"
  | badSyntax argument => "bad flag syntax: " ++ argument
  | undefined name => "flag provided but not defined: -" ++ name
  | needsValue name => "flag needs an argument: -" ++ name
  | badValue value name cause =>
    "invalid value " ++ value.quote ++ " for flag -" ++ name ++ ": " ++ cause.message
  | badSwitch value name =>
    "invalid boolean value " ++ value.quote ++ " for -" ++ name ++ ": " ++
      Literal.Failure.malformed.message

namespace Flag

/-- Whether a name can be told from dashes and from a value. -/
def isNameable (name : Text) : Bool := name.head? ≠ some Argument.dash && Argument.equals ∉ name

/-- Whether flags may be defined together. -/
def areDefinable (flags : List Flag) : Bool :=
  flags.all (fun f => isNameable f.name) && (flags.map Flag.name).Nodup

/-- The names that ask for help unless there is a flag of that name. -/
def helpNames : List Text := ["help", "h"]

/-- The flag of a name. -/
def find (flags : List Flag) (name : Text) : Except FlagError Flag :=
  match flags.find? fun f => f.name = name with
  | some f => .ok f
  | none => .error (if name ∈ helpNames then .help else .undefined name)

/-- The values by default. -/
def defaults (flags : List Flag) : FlagValues :=
  flags.foldl (fun values f => values.insert f.name f.default) .empty

/-- The value of a flag that a text spells. -/
def read (f : Flag) (t : Text) : Except FlagError FlagValue :=
  match f.default.read t, f.default with
  | .ok value, _ => .ok value
  | .error _, .switch _ => .error (.badSwitch t f.name)
  | .error e, _ => .error (.badValue t f.name e)

/-- The value that a flag has if none is given. -/
def alone (f : Flag) : Except FlagError FlagValue :=
  match f.default with
  | .switch _ => .ok (.switch true)
  | _ => .error (.needsValue f.name)

/-- Whether a flag takes the next argument as its value. -/
def takesNext (f : Flag) : Bool :=
  match f.default with
  | .switch _ => false
  | _ => true

/-- The values that arguments give on top of others, and the arguments after the flags. -/
def parse (flags : List Flag) (values : FlagValues) :
    List Text → Except FlagError (FlagValues × List Text)
  | [] => .ok (values, [])
  | argument :: rest =>
    match Argument.ofText argument with
    | .plain => .ok (values, argument :: rest)
    | .terminator => .ok (values, rest)
    | .malformed => .error (.badSyntax argument)
    | .flag name value? =>
      match find flags name with
      | .error e => .error e
      | .ok f =>
        match value?, rest with
        | some value, rest =>
          match f.read value with
          | .error e => .error e
          | .ok value => parse flags (values.insert name value) rest
        | none, [] => f.alone.map fun value => (values.insert name value, [])
        | none, next :: others =>
          if f.takesNext then
            match f.read next with
            | .error e => .error e
            | .ok value => parse flags (values.insert name value) others
          else
            match f.alone with
            | .error e => .error e
            | .ok value => parse flags (values.insert name value) (next :: others)

end Flag

end Reroute

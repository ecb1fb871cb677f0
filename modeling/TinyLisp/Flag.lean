import TinyLisp.Duration
import TinyLisp.Text.Numeral
import TinyLisp.Text.Quoted

/-!
Flags of a command line: `-name value`, `-name=value`, and for truth values `-name` alone. A second
dash makes no difference. The flags end at the first argument that is none.
-/

namespace TinyLisp

inductive FlagValue where
  | text (t : Text)
  | duration (d : Duration)
  | int64 (n : Int64)
  | bool (b : Bool)
  deriving DecidableEq, Repr

/-- A flag of a command. Its default says what kind of value it takes. -/
structure Flag where
  name : String
  /-- A second name. -/
  shortName : Option String := none
  default : FlagValue
  usage : String

/-- Why a command line cannot be read. -/
inductive FlagFault where
  | badSyntax (argument : Text)
  | undefined (name : Text)
  | needsArgument (name : Text)
  | badValue (value name : Text) (cause : NumeralFault)
  | badBoolean (value name : Text)
  | twoForms (name shortName : String)
  deriving DecidableEq, Repr

def FlagFault.message : FlagFault → Text
  | .badSyntax argument => "bad flag syntax: " ++ argument
  | .undefined name => "flag provided but not defined: -" ++ name
  | .needsArgument name => "flag needs an argument: -" ++ name
  | .badValue value name cause =>
    let reason : Text := match cause with
      | .notANumber => "parse error"
      | .outOfRange => "value out of range"
    "invalid value " ++ value.quote ++ " for flag -" ++ name ++ ": " ++ reason
  | .badBoolean value name =>
    "invalid boolean value " ++ value.quote ++ " for -" ++ name ++ ": parse error"
  | .twoForms name shortName =>
    "Cannot use two forms of the same flag: " ++ Text.ofString shortName ++ " " ++ Text.ofString name

namespace Flag

def names (f : Flag) : List String := f.name :: f.shortName.toList

/-- The truth value that a text spells. -/
def truth? (t : Text) : Option Bool :=
  if t.isOneOf ["1", "t", "T", "true", "TRUE", "True"] then some true
  else if t.isOneOf ["0", "f", "F", "false", "FALSE", "False"] then some false
  else none

/-- The value that a text spells for a flag given under a name. -/
def readValue (f : Flag) (name value : Text) : Except FlagFault FlagValue :=
  match f.default with
  | .text _ => .ok (.text value)
  | .duration _ =>
    match Duration.parse? value with
    | some d => .ok (.duration d)
    | none => .error (.badValue value name .notANumber)
  | .int64 _ =>
    match Numeral.int64 value.chars with
    | .ok n => .ok (.int64 n)
    | .error cause => .error (.badValue value name cause)
  | .bool _ =>
    match truth? value with
    | some b => .ok (.bool b)
    | none => .error (.badBoolean value name)

def isBool (f : Flag) : Bool := f.default matches .bool _

/-- One argument on its own. -/
inductive Argument where
  /-- No flag: the flags end before it. -/
  | plain
  /-- Two dashes: the flags end behind it. -/
  | terminator
  | malformed
  | flag (name : Text) (value : Option Text)

def dash : UInt8 := 45
def equals : UInt8 := 61

/-- The name of a flag without its dashes, and the value behind an equals sign. -/
def splitName (body : Text) : Argument :=
  match body with
  | [] => .malformed
  | b :: rest =>
    if b = dash ∨ b = equals then .malformed
    else match Text.cut? equals rest with
      | some (name, value) => .flag (b :: name) (some value)
      | none => .flag body none

def Argument.ofText (t : Text) : Argument :=
  match t with
  | a :: b :: rest =>
    if a ≠ dash then .plain
    else if b ≠ dash then splitName (b :: rest)
    else if rest = [] then .terminator
    else splitName rest
  | _ => .plain

/-- What was read of a command line: the flags that were given, the last one first, and the
arguments behind them or the reason why reading broke off. -/
structure Reading where
  given : List (String × FlagValue)
  outcome : Except FlagFault (List Text)

def find? (flags : List Flag) (name : Text) : Option (Flag × String) :=
  flags.findSome? fun f => (f.names.find? fun n => Text.ofString n = name).map fun n => (f, n)

/-- Reads flags up to the first argument that is none. -/
def read (flags : List Flag) (given : List (String × FlagValue)) (args : List Text) : Reading :=
  match args with
  | [] => ⟨given, .ok []⟩
  | arg :: rest =>
    match Argument.ofText arg with
    | .plain => ⟨given, .ok (arg :: rest)⟩
    | .terminator => ⟨given, .ok rest⟩
    | .malformed => ⟨given, .error (.badSyntax arg)⟩
    | .flag name value =>
      match find? flags name with
      | none => ⟨given, .error (.undefined name)⟩
      | some (f, key) =>
        match value, rest with
        | some v, rest =>
          match f.readValue name v with
          | .error fault => ⟨given, .error fault⟩
          | .ok v => read flags ((key, v) :: given) rest
        | none, rest =>
          if f.isBool then read flags ((key, .bool true) :: given) rest
          else match rest with
            | [] => ⟨given, .error (.needsArgument name)⟩
            | v :: rest =>
              match f.readValue name v with
              | .error fault => ⟨given, .error fault⟩
              | .ok v => read flags ((key, v) :: given) rest
termination_by args.length

/-- The first flag that was given under both its names. -/
def twoForms? (flags : List Flag) (given : List (String × FlagValue)) : Option FlagFault :=
  flags.findSome? fun f =>
    match f.shortName with
    | none => none
    | some shortName =>
      if (given.lookup f.name).isSome ∧ (given.lookup shortName).isSome then
        some (.twoForms f.name shortName)
      else none

/-- The flag that every command has. -/
def help : Flag where
  name := "help"
  shortName := some "h"
  default := .bool false
  usage := "show help"

end Flag

namespace Flag.Reading

/-- The value last given under a name. -/
def value? (r : Reading) (name : String) : Option FlagValue := r.given.lookup name

def text? (r : Reading) (name : String) : Option Text :=
  match r.value? name with
  | some (.text t) => some t
  | _ => none

def duration? (r : Reading) (name : String) : Option Duration :=
  match r.value? name with
  | some (.duration d) => some d
  | _ => none

def int64? (r : Reading) (name : String) : Option Int64 :=
  match r.value? name with
  | some (.int64 n) => some n
  | _ => none

def bool? (r : Reading) (name : String) : Option Bool :=
  match r.value? name with
  | some (.bool b) => some b
  | _ => none

/-- Whether help was asked for, under either name. -/
def asksHelp (r : Reading) : Bool :=
  Flag.help.names.any fun name => r.bool? name = some true

end Flag.Reading

namespace Flag

/-- What the arguments of a command ask for. -/
inductive Asked where
  | help
  | action (given : Reading) (rest : List Text)
  | nothing (fault : FlagFault)

/-- Reads the arguments of a command with the given flags, to which the one for help is added. -/
def ask (flags : List Flag) (args : List Text) : Asked :=
  let r := read (flags ++ [help]) [] args
  match r.outcome with
  | .error fault => .nothing fault
  | .ok rest =>
    match twoForms? (flags ++ [help]) r.given with
    | some fault => .nothing fault
    | none => if r.asksHelp then .help else .action r rest

end Flag

end TinyLisp

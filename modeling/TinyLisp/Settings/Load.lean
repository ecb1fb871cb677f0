import TinyLisp.Directory
import TinyLisp.Document.Parser
import TinyLisp.Settings.Layer

/-!
Where settings come from: the defaults, a file over them, and the command line over both. Only
valid settings are given out.
-/

namespace TinyLisp

/-- Why there are no settings to work with. -/
inductive SettingsFault where
  /-- The file cannot be read. -/
  | unreadable (path : Text) (cause : FileFault)
  /-- The file is no document, or no sense can be made of it. -/
  | malformed (path : Text)
  /-- The document holds values that do not fit. -/
  | mistyped (path : Text) (misfits : List Misfit)
  /-- The settings in the file are invalid. -/
  | invalidFile (path : Text) (problems : List SettingsProblem)
  /-- The settings are invalid once the command line is taken into account. -/
  | invalidFlags (problems : List SettingsProblem)

namespace SettingsFault

/-- The text of the fault. What is wrong with a file that is no document is not told. -/
def message? : SettingsFault → Option Text
  | .unreadable path cause =>
    some ("reading config " ++ path.quote ++ ": " ++ cause.message path)
  | .malformed _ => none
  | .mistyped path misfits =>
    let points : List Text := misfits.map fun m => "\n  " ++ m.message
    some ("decoding config " ++ path.quote ++ ": yaml: unmarshal errors:" ++ points.flatten)
  | .invalidFile path problems =>
    some ("invalid config " ++ path.quote ++ ": " ++ problemList problems)
  | .invalidFlags problems => some ("invalid flags: " ++ problemList problems)

/-- What is wrong with the settings, if they were read but are invalid. -/
def problems? : SettingsFault → Option (List SettingsProblem)
  | .invalidFile _ problems | .invalidFlags problems => some problems
  | .unreadable .. | .malformed _ | .mistyped .. => none

end SettingsFault

namespace Settings

/-- The settings if they are valid. -/
def check (s : Settings) (fault : List SettingsProblem → SettingsFault) :
    Except SettingsFault Settings :=
  if s.Valid then .ok s else .error (fault s.problems)

/-- The layer that the file at a path gives, from what reading the file gave. -/
def readLayer (path : Text) (content : Except FileFault Text) : Except SettingsFault Layer :=
  match content with
  | .error cause => .error (.unreadable path cause)
  | .ok text =>
    match Document.read? text with
    | none => .error (.malformed path)
    | some d => (Layer.ofDocument d).mapError fun
      | .broken => .malformed path
      | .misfits ms => .mistyped path ms

/-- The settings of a file over the defaults. -/
def load (path : Text) (content : Except FileFault Text) : Except SettingsFault Settings := do
  let layer ← readLayer path content
  check { layer.onto default with fileName := path } (.invalidFile path)

/-- The settings of a command line over those of the file it names, if it names one. The file must
be valid on its own. -/
def resolve (flags : Layer) (path : Text) (content : Except FileFault Text) :
    Except SettingsFault Settings := do
  let base ← if path = [] then .ok default else load path content
  check (flags.onto base) .invalidFlags

end Settings

end TinyLisp

import TinyLisp.Command.Basic

/-!
The help texts: sections of indented lines under a title, with a blank line between sections.
-/

namespace TinyLisp

namespace Help

/-- A title with lines below it. -/
def part (title : String) (lines : List Text) : Text :=
  Text.ofString title ++ ":\n" ++ (lines.map fun l : Text => ("   " : Text) ++ l ++ "\n").flatten

/-- Parts one below the other. -/
def page (parts : List Text) : Text := Text.join "\n" parts

/-- Rows of two columns. Two spaces at least stand between them. -/
def table (rows : List (Text × Text)) : List Text :=
  let width := (rows.map fun r => r.1.length).foldl max 0 + 2
  rows.map fun r => r.1 ++ List.replicate (width - r.1.length) 32 ++ r.2

/-- The names of a flag with their dashes, and a mark for the value it takes. -/
def form (f : Flag) : Text :=
  let dashed (n : String) : Text := Text.ofString (if n.length = 1 then "-" else "--") ++ n
  Text.join ", " (f.names.map dashed) ++ (if f.isBool then "" else " value")

/-- What a flag stands at if it is not given. -/
def standing (f : Flag) : Text :=
  match f.default with
  | .text [] => []
  | .text t => " (default: " ++ t.quote ++ ")"
  | .duration d => " (default: " ++ d.render ++ ")"
  | .int64 n => " (default: " ++ Text.decimal n.toInt ++ ")"
  | .bool b => if b then " (default: true)" else " (default: false)"

/-- One line for each flag, and an empty one. -/
def options (flags : List Flag) : List Text :=
  table (flags.map fun f => (form f, Text.ofString f.usage ++ standing f)) ++ [[]]

/-- Flags in the order of their names. -/
def sorted (flags : List Flag) : List Flag :=
  flags.mergeSort fun a b => (Text.ofString a.name).le (Text.ofString b.name)

/-- The program in one line. -/
def programName : Text := "lispust - evaluate tiny S-expressions"

def commandTable : List Text :=
  table (Command.all.map fun c =>
    (Text.join ", " (c.names.map Text.ofString), Text.ofString c.summary))

/-- The help of the program as a whole. -/
def program : Text :=
  page [part "NAME" [programName],
    part "USAGE" ["lispust [global options] command [command options] [arguments...]"],
    part "COMMANDS" commandTable,
    part "GLOBAL OPTIONS" (options (sorted [Flag.help, Command.verbose]))]

/-- The help on a topic without a name: the program as if it were one of its commands, with its own
commands two columns further in. -/
def nameless : Text :=
  page [part "NAME" [programName],
    part "USAGE" ["lispust command [command options] [arguments...]"],
    part "COMMANDS" (commandTable.map (("  " : Text) ++ ·)),
    part "OPTIONS" (options [Command.verbose, Flag.help])]

/-- A command as it is called. The command for help stands outside the program's name. -/
def callName : Command → Text
  | .help => []
  | c => "lispust " ++ c.name

/-- The help of a command with the given flags to show. -/
def command (c : Command) (flags : List Flag) : Text :=
  let usage : Text :=
    callName c ++ (if flags.isEmpty then "" else " [command options]") ++ " " ++ c.arguments
  page ([part "NAME" [callName c ++ " - " ++ c.summary], part "USAGE" [usage]] ++
    (if c.description = [] then [] else [part "DESCRIPTION" c.description]) ++
    (if flags.isEmpty then [] else [part "OPTIONS" (options flags)]))

/-- The help of a command that was itself called. The flag for help is shown if it is the only
one. -/
def called (c : Command) : Text :=
  command c (if c.flags.isEmpty then [Flag.help] else sorted c.flags)

/-- The help on a topic, if there is one of that name. -/
def topic? (name : Text) : Option Text :=
  if name = [] then some nameless
  else match Command.ofName? name with
    | some .help => some (called .help)
    | some c => some (command c (sorted c.flags))
    | none => none

end Help

end TinyLisp

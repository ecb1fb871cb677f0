import TinyLisp.Client
import TinyLisp.Command.Help
import TinyLisp.Node.Dump
import TinyLisp.Service.Session

/-!
What a call of the program does: the text it prints, the lines it logs, and how it ends.
-/

namespace TinyLisp

/-- A call of the program. -/
structure Invocation where
  args : List Text
  /-- What can be read from standard input. -/
  input : Source
  ctx : Option ContextEnd
  /-- The content of the files that can be named. -/
  file : Text → Except FileFault Text

/-- Why the program failed. -/
inductive CommandFault where
  | expression (message : Text)
  | argumentCount (command : Command) (count : Nat)
  | noTopic (name : Text)
  | flag (fault : FlagFault)
  | settings (fault : SettingsFault)
  | listen (address : Text) (fault : Address.ListenFault)
  | call (fault : Client.CallFault)

namespace CommandFault

def message? : CommandFault → Option Text
  | .expression message => some message
  | .argumentCount c n =>
    some (Text.ofString c.name ++ ": expected one expression, got " ++ Text.decimal n ++
      " arguments")
  | .noTopic name => some ("No help topic for '" ++ name ++ "'")
  | .flag fault => some fault.message
  | .settings fault => fault.message?
  | .listen address fault => some (fault.message address)
  | .call fault => some fault.message

/-- The exit code that a fault asks for, if it asks for one. -/
def exitCode? : CommandFault → Option Nat
  | .expression _ => some 1
  | .argumentCount .. => some 2
  | .noTopic _ => some 3
  | .flag _ | .settings _ | .listen .. | .call _ => none

end CommandFault

/-- What a call of the program leaves behind. -/
structure Output where
  printed : Text := []
  log : List LogLine := []
  fault : Option CommandFault := none

namespace Output

def print (t : Text) : Output := { printed := t }

def fail (f : CommandFault) : Output := { fault := some f }

/-- The exit code of the process. -/
def exitCode (o : Output) : Nat :=
  match o.fault with
  | none => 0
  | some f => f.exitCode?.getD 1

/-- What the process writes to standard error at its end. -/
def complaint (o : Output) : Text :=
  match o.fault with
  | none => []
  | some f => f.message?.getD [] ++ "\n"

end Output

namespace Command

/-- The expressions that are evaluated when none is given. -/
def examples : List Text := ["(+ 2 3)", "(- 10 3)", "(if true 100 200)"]

/-- Evaluates one expression. A dash stands for the one on standard input, which is neither logged
nor cut short by the context. -/
def runOne (ctx : Option ContextEnd) (input : Source) (e : Text) : Evaluated × Source :=
  if e = ("-" : Text) then
    let (outcome, rest) := input.run
    (⟨outcome, []⟩, rest)
  else (evaluate "cli" ctx e, input)

/-- Evaluates expressions in order up to the first that fails, and prints one value a line. -/
def runAll (ctx : Option ContextEnd) (input : Source) : List Text → Output
  | [] => {}
  | e :: es =>
    let (evaluated, rest) := runOne ctx input e
    match evaluated.outcome with
    | .error f => { log := evaluated.log, fault := some (.expression f.message) }
    | .ok out =>
      let more := runAll ctx rest es
      { more with printed := out ++ "\n" ++ more.printed, log := evaluated.log ++ more.log }

def runAction (i : Invocation) (verbose : Bool) (args : List Text) : Output :=
  let o := runAll i.ctx i.input (if args = [] then examples else args)
  { o with log := if verbose then o.log else [] }

/-- Hands on the only argument there may be. -/
def withOne (c : Command) (args : List Text) (f : Text → Output) : Output :=
  match args with
  | [e] => f e
  | _ => .fail (.argumentCount c args.length)

/-- The tokens of an expression, one a line. -/
def tokenLines (e : Text) : Text :=
  (e.tokens.map fun t : Token => t.describe ++ ("\n" : Text)).flatten

/-- The tree of an expression in one of three forms. -/
def parseAction (r : Flag.Reading) (e : Text) : Output :=
  match e.parse with
  | .error f => .fail (.expression f.message)
  | .ok n =>
    if r.bool? "dump" = some true then .print (n.dump ++ "\n")
    else if r.bool? "tree" = some true then .print n.outline
    else .print (n.encode ++ "\n")

/-- The protocols to serve, and where. -/
def servers (s : Settings) : List (Protocol × Text) :=
  [(Protocol.http, s.httpAddr), (Protocol.grpc, s.grpcAddr)].filter fun p => p.2 ≠ []

/-- Starts the servers and stops them again. The first that cannot start is to blame. -/
def serveAction (i : Invocation) (r : Flag.Reading) : Output :=
  match Settings.ofCommandLine r i.file with
  | .error f => .fail (.settings f)
  | .ok s =>
    let line (p : Protocol) (t : Text) : LogLine := ⟨.info, Text.ofString p.name ++ ": " ++ t⟩
    let started := (servers s).filter fun p => (Address.listen p.2).isOk
    { log := started.map (fun p => line p.1 ("listening on " ++ p.2)) ++
        (servers s).map (fun p => line p.1 "shutting down") ++ [⟨.info, "stopped"⟩]
      fault := (servers s).findSome? fun p =>
        match Address.listen p.2 with
        | .ok _ => none
        | .error f => some (.listen p.2 f) }

def clientAction (i : Invocation) (r : Flag.Reading) : Output :=
  .fail (.call (Client.call i.ctx
    ((r.duration? "timeout").getD Settings.default.requestTimeout)
    ((r.text? "addr").getD Settings.default.grpcAddr)))

def helpAction (args : List Text) : Output :=
  match args with
  | [] => .print Help.program
  | name :: _ =>
    match Help.topic? name with
    | some page => .print page
    | none => .fail (.noTopic name)

/-- Runs a command with its arguments. -/
def invoke (c : Command) (i : Invocation) (verbose : Bool) (args : List Text) : Output :=
  match Flag.ask c.flags args with
  | .nothing f =>
    { printed := "Incorrect Usage: " ++ f.message ++ "\n\n" ++ Help.called c
      fault := some (.flag f) }
  | .help => .print (Help.called c)
  | .action r rest =>
    match c with
    | .run => runAction i verbose rest
    | .tokens => withOne c rest fun e => .print (tokenLines e)
    | .parse => withOne c rest (parseAction r)
    | .serve => serveAction i r
    | .client => withOne c rest fun _ => clientAction i r
    | .help => helpAction rest

end Command

namespace Invocation

def flags : List Flag := [Command.verbose, Flag.help]

/-- Whether the program may have to read from standard input. -/
def mayRead (args : List Text) : Bool := args.contains ("-" : Text)

/-- The file that the program has to read; empty if there is none. -/
def fileNamed (args : List Text) : Text :=
  match (Flag.read flags [] args).outcome with
  | .ok (name :: rest) =>
    if Command.ofName? name = some .serve then
      match Flag.ask Settings.flags rest with
      | .action r _ => Settings.flagFile r
      | _ => []
    else []
  | _ => []

/-- Runs the program. -/
def run (i : Invocation) : Output :=
  let r := Flag.read flags [] i.args
  match Flag.twoForms? flags r.given, r.outcome with
  | some f, _ => { printed := f.message ++ "\n" ++ Help.program, fault := some (.flag f) }
  | none, .error f =>
    { printed := "Incorrect Usage. " ++ f.message ++ "\n\n" ++ Help.program
      fault := some (.flag f) }
  | none, .ok args =>
    if r.asksHelp then .print Help.program
    else match args with
      | [] => .print Help.program
      | name :: rest =>
        match Command.ofName? name with
        | some c => c.invoke i ((r.bool? "verbose").getD false) rest
        | none => Command.helpAction args

end Invocation

end TinyLisp

import TinyLisp.Settings.Flags

/-!
The commands of the program.
-/

namespace TinyLisp

inductive Command where
  | run
  | tokens
  | parse
  | serve
  | client
  | help
  deriving DecidableEq, Repr

namespace Command

def all : List Command := [.run, .tokens, .parse, .serve, .client, .help]

def name : Command → String
  | .run => "run"
  | .tokens => "tokens"
  | .parse => "parse"
  | .serve => "serve"
  | .client => "client"
  | .help => "help"

/-- The names a command is called by. -/
def names : Command → List String
  | .help => ["help", "h"]
  | c => [c.name]

def ofName? (t : Text) : Option Command :=
  all.find? fun c => t.isOneOf c.names

def summary : Command → String
  | .run => "Evaluate expressions and print one result per line."
  | .tokens => "Print the tokens of an expression."
  | .parse => "Parse an expression and print its tree."
  | .serve => "Serve expressions over HTTP and gRPC."
  | .client => "Evaluate an expression on a remote server."
  | .help => "Shows a list of commands or help for one command"

/-- What a command takes behind its flags. -/
def arguments : Command → String
  | .run => "[EXPR...]"
  | .tokens | .parse | .client => "EXPR"
  | .serve => "[arguments...]"
  | .help => "[command]"

def description : Command → List Text
  | .run =>
    ["Each argument is one expression. \"-\" reads one expression from stdin.",
      "Without arguments a few built-in examples are evaluated."]
  | _ => []

/-- The flags of a command, in the order of their names. -/
def flags : Command → List Flag
  | .run | .tokens | .help => []
  | .parse =>
    [{ name := "dump"
       default := .bool false
       usage := "Print the Go representation of the tree." },
     { name := "tree"
       default := .bool false
       usage := "Print the tree with one node per line." }]
  | .serve => Settings.flags
  | .client =>
    [{ name := "addr"
       default := .text Settings.default.grpcAddr
       usage := "Address of the gRPC server." },
     { name := "timeout"
       default := .duration Settings.default.requestTimeout
       usage := "Maximum time to wait for the reply." }]

/-- The flag in front of all commands. -/
def verbose : Flag where
  name := "verbose"
  default := .bool false
  usage := "Log evaluations to stderr."

end Command

end TinyLisp

import TinyLisp.Failure

/-!
Log lines, and the evaluation of one expression together with the lines it logs.
-/

namespace TinyLisp

inductive LogLevel where
  | debug
  | info
  | error
  deriving DecidableEq, Repr

def LogLevel.letter : LogLevel → String
  | .debug => "D"
  | .info => "I"
  | .error => "E"

structure LogLine where
  level : LogLevel
  message : Text
  deriving DecidableEq, Repr

namespace LogLine

def lineFeed : UInt8 := 10

/-- The lines of output that a log line takes: one for each line of its message, with the letter of
its level in front. -/
def entries (l : LogLine) : List Text :=
  (l.message.split lineFeed).map fun line => Text.ofString l.level.letter ++ " " ++ line

/-- The lines that are written. Debug lines are, if they are asked for. -/
def written (debug : Bool) (lines : List LogLine) : List LogLine :=
  lines.filter fun l => debug || l.level ≠ .debug

end LogLine

/-- Stands in a log line for the time that a request took. -/
def elapsed : Text := "<duration>"

/-- What came of a request to evaluate an expression, and what was logged on the way. -/
structure Evaluated where
  outcome : Except Failure Text
  log : List LogLine

namespace Evaluated

def failure? (e : Evaluated) : Option Failure :=
  match e.outcome with
  | .ok _ => none
  | .error f => some f

def result (e : Evaluated) : ResultLabel := resultOf e.failure?

end Evaluated

/-- The line logged before an expression is evaluated. -/
def startLine (transport input : Text) : LogLine :=
  ⟨.debug, transport ++ ": run " ++ input.quote⟩

/-- Evaluates the expression of a request that came in over a transport. Nothing is evaluated once
the context of the request is over. -/
def evaluate (transport : Text) (ctx : Option ContextEnd) (input : Text) : Evaluated :=
  match ctx with
  | some reason => ⟨.error (.ended reason), []⟩
  | none =>
    match input.run with
    | .ok out =>
      ⟨.ok out, [startLine transport input,
        ⟨.debug, transport ++ ": " ++ input.quote ++ " => " ++ out⟩]⟩
    | .error f =>
      ⟨.error (.fault f), [startLine transport input,
        ⟨.info, transport ++ ": " ++ (Failure.fault f).result.name ++ ": " ++ input.quote ++ ": " ++
          f.message⟩]⟩

end TinyLisp

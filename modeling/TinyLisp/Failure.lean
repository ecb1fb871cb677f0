import TinyLisp.Evaluation

/-!
Failures as they travel through the program: a cause, wrapped and joined with others on its way.

`Failure.result` sorts a failure by the causes it holds, however deep, and the answers over HTTP
and RPC follow from that.
-/

namespace TinyLisp

/-- Why the context of a request is over. -/
inductive ContextEnd where
  | canceled
  | deadlineExceeded
  deriving DecidableEq, Repr

def ContextEnd.message : ContextEnd → Text
  | .canceled => "context canceled"
  | .deadlineExceeded => "context deadline exceeded"

/-- A failure: a cause, or others with something said in front of one or one after the other. -/
inductive Failure where
  | fault (fault : Fault)
  | ended (reason : ContextEnd)
  | other (message : Text)
  | wrapped (context : Text) (cause : Failure)
  | joined (causes : List Failure)

/-- How a request ended, as counters and log lines name it. -/
inductive ResultLabel where
  | ok
  | parseError
  | evalError
  | canceled
  | error
  deriving DecidableEq, Repr

def ResultLabel.name : ResultLabel → String
  | .ok => "ok"
  | .parseError => "parse_error"
  | .evalError => "eval_error"
  | .canceled => "canceled"
  | .error => "error"

/-- Whether the expression is to blame, and not what is around it. -/
def ResultLabel.isLanguage : ResultLabel → Bool
  | .parseError | .evalError => true
  | _ => false

namespace Failure

mutual

def message : Failure → Text
  | .fault f => f.message
  | .ended r => r.message
  | .other m => m
  | .wrapped context cause => context ++ ": " ++ cause.message
  | .joined causes => joinMessages causes

/-- One message a line. -/
def joinMessages : List Failure → Text
  | [] => []
  | [f] => f.message
  | f :: g :: fs => f.message ++ "\n" ++ joinMessages (g :: fs)

end

mutual

/-- Whether the failure, or one that it holds, is as asked. -/
def any (p : Failure → Bool) : Failure → Bool
  | .wrapped context cause => p (.wrapped context cause) || cause.any p
  | .joined causes => p (.joined causes) || anyOf p causes
  | f => p f

def anyOf (p : Failure → Bool) : List Failure → Bool
  | [] => false
  | f :: fs => f.any p || anyOf p fs

end

def isParseFault : Failure → Bool
  | .fault (.parse _) => true
  | _ => false

def isTypeFault : Failure → Bool
  | .fault (.eval (.types _)) => true
  | _ => false

def isOver : Failure → Bool
  | .ended _ => true
  | _ => false

def isPastDeadline : Failure → Bool
  | .ended .deadlineExceeded => true
  | _ => false

/-- A fault of the expression counts before the end of a context, whatever their order. -/
def result (f : Failure) : ResultLabel :=
  if f.any isParseFault then .parseError
  else if f.any isTypeFault then .evalError
  else if f.any isOver then .canceled
  else .error

end Failure

/-- The label of a request that ended with the given failure, if any. -/
def resultOf : Option Failure → ResultLabel
  | none => .ok
  | some f => f.result

/-- The status of an HTTP answer to a request that ended like this. -/
def httpStatus (f : Option Failure) : Nat :=
  match resultOf f with
  | .parseError | .evalError => 400
  | .canceled => 503
  | .ok | .error => 500

/-- The codes that an RPC answer can carry. -/
inductive RpcCode where
  | ok
  | canceled
  | invalidArgument
  | deadlineExceeded
  | resourceExhausted
  | internal
  | unavailable
  deriving DecidableEq, Repr

def RpcCode.name : RpcCode → String
  | .ok => "OK"
  | .canceled => "Canceled"
  | .invalidArgument => "InvalidArgument"
  | .deadlineExceeded => "DeadlineExceeded"
  | .resourceExhausted => "ResourceExhausted"
  | .internal => "Internal"
  | .unavailable => "Unavailable"

/-- The code of an RPC answer to a request that ended like this. -/
def rpcCode (f : Option Failure) : RpcCode :=
  match resultOf f with
  | .parseError | .evalError => .invalidArgument
  | .canceled =>
    if (f.map (·.any Failure.isPastDeadline)).getD false then .deadlineExceeded else .canceled
  | .ok | .error => .internal

/-- Text that arrives in chunks and ends, or breaks off with an error. -/
structure Source where
  chunks : List Text
  breaksWith : Option Text

/-- Everything up to the end. What has been read is gone; an end stays an end. -/
def Source.readAll (s : Source) : Except Text Text × Source :=
  let result := match s.breaksWith with
    | some e => .error e
    | none => .ok s.chunks.flatten
  (result, { s with chunks := [] })

/-- The value of the expression that a source holds. -/
def Source.run (s : Source) : Except Failure Text × Source :=
  let (content, rest) := s.readAll
  let outcome := match content with
    | .error e => .error (.other e)
    | .ok t => t.run.mapError .fault
  (outcome, rest)

end TinyLisp

import TinyLisp.Service.Ledger
import TinyLisp.Service.Log
import TinyLisp.Settings.Basic

/-!
A service that evaluates expressions and keeps count of them.
-/

namespace TinyLisp

/-- The protocols that a service speaks. -/
inductive Protocol where
  | http
  | grpc
  deriving DecidableEq, Repr

def Protocol.name : Protocol → String
  | .http => "http"
  | .grpc => "grpc"

structure Service where
  settings : Settings
  /-- Whether requests are counted. -/
  counts : Bool
  /-- Whether the counters are known to the registry; they can be made known once only. -/
  registered : Bool
  /-- Whether the counters can be asked for. -/
  exposes : Bool
  /-- Whether debug lines are written. -/
  logsDebug : Bool
  ledger : Ledger := {}
  httpStopped : Bool := false
  grpcStopped : Bool := false

namespace Service

/-- A service at its start. -/
def start (settings : Settings) (counts exposes logsDebug : Bool) : Service where
  settings
  counts
  registered := counts
  exposes
  logsDebug

/-- The service after a request over a transport ended in a result. -/
def enter (s : Service) (transport : Text) (result : ResultLabel) : Service :=
  if s.counts then { s with ledger := s.ledger.enter transport result } else s

/-- Evaluates the expression of a request, and counts the request. -/
def run (s : Service) (transport : Text) (ctx : Option ContextEnd) (input : Text) :
    Evaluated × Service :=
  let e := evaluate transport ctx input
  (e, s.enter transport e.result)

/-- The first of the given texts that cannot be the value of a label. -/
def badLabel? (labels : List Text) : Option Text := labels.find? fun l => !l.isUtf8

def isStopped (s : Service) : Protocol → Bool
  | .http => s.httpStopped
  | .grpc => s.grpcStopped

def stop (s : Service) : Protocol → Service
  | .http => { s with httpStopped := true }
  | .grpc => { s with grpcStopped := true }

def address (s : Service) : Protocol → Text
  | .http => s.settings.httpAddr
  | .grpc => s.settings.grpcAddr

end Service

end TinyLisp

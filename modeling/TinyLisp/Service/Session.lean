import TinyLisp.Service.Http
import TinyLisp.Service.Rpc

/-!
Everything that can be asked of a service, one request after the other.
-/

namespace TinyLisp

inductive Request where
  /-- Evaluate an expression that came in over a transport. -/
  | run (transport input : Text) (ctx : Option ContextEnd)
  /-- Look up a count. -/
  | count (transport result : Text)
  /-- Make the counters known to the registry. -/
  | register
  | http (request : HttpRequest)
  /-- Call the RPC method. -/
  | rpc (input : Text) (ctx : Option ContextEnd)
  /-- Call the RPC method with a message that cannot be decoded. -/
  | rpcUndecodable (cause : Text)
  /-- Call the RPC method through a connection. -/
  | call (input : Text)
  /-- Close a client that has no connection. -/
  | closeClient
  /-- Serve at a place where the first connection fails. -/
  | serve (protocol : Protocol) (place cause : Text)
  /-- Serve at the address of the settings. -/
  | listen (protocol : Protocol)
  | shutdown (protocol : Protocol) (ctx : Option ContextEnd)

inductive Reply where
  | ran (outcome : Except Failure Text)
  | counted (n : Nat)
  /-- A text that cannot be the value of a label. -/
  | badLabel (value : Text)
  /-- A count was looked up where nothing is counted. -/
  | noCounters
  | done (fault : Option Text)
  | http (reply : HttpReply)
  | rpc (reply : RpcReply)

/-- What is said about a text that cannot be the value of a label. -/
def badLabelMessage (value : Text) : Text :=
  "label value " ++ value.quote ++ " is not valid UTF-8"

namespace Service

/-- Evaluates an expression for a transport of any name. Counting fails if the name cannot be the
value of a label. -/
def runNamed (s : Service) (transport input : Text) (ctx : Option ContextEnd) :
    Reply × List LogLine × Service :=
  if s.counts ∧ !transport.isUtf8 then
    (.badLabel transport, if ctx.isSome then [] else [startLine transport input], s)
  else
    let (e, s) := s.run transport ctx input
    (.ran e.outcome, e.log, s)

def lookUp (s : Service) (transport result : Text) : Reply × List LogLine × Service :=
  if !s.counts then (.noCounters, [], s)
  else match badLabel? [transport, result] with
    | some value => (.badLabel value, [], s)
    | none =>
      (.counted (s.ledger.count transport result), [],
        { s with ledger := s.ledger.touch transport result })

def register (s : Service) : Option Text × Service :=
  if s.registered then
    (some "registering runner metrics: duplicate metrics collector registration attempted", s)
  else (none, { s with registered := true })

/-- Serving ends when a connection fails, which is no fault once the server was stopped. -/
def serve (s : Service) (p : Protocol) (place cause : Text) : Option Text × List LogLine :=
  (if s.isStopped p then none else some (Text.ofString p.name ++ " server: " ++ cause),
    [⟨.info, Text.ofString p.name ++ ": listening on " ++ place⟩])

def listenFault? (address : Text) : Option Text :=
  match Address.listen address with
  | .ok _ => none
  | .error f => some (f.message address)

/-- Stops a server. The HTTP server has no connections to wait for; the gRPC server waits for those
that are open as long as the context lasts. -/
def shutdown (s : Service) (p : Protocol) (ctx : Option ContextEnd) :
    Option Text × List LogLine × Service :=
  let fault := match p with
    | .http => none
    | .grpc => ctx.map ContextEnd.message
  (fault, [⟨.info, Text.ofString p.name ++ ": shutting down"⟩], s.stop p)

/-- The answer to a request with all it logs, and the service after it. -/
def handle (s : Service) : Request → Reply × List LogLine × Service
  | .run transport input ctx => s.runNamed transport input ctx
  | .count transport result => s.lookUp transport result
  | .register => let (fault, s) := s.register; (.done fault, [], s)
  | .http r => let (reply, log, s) := s.http r; (.http reply, log, s)
  | .rpc input ctx => let (reply, log, s) := s.rpc ctx input; (.rpc reply, log, s)
  | .rpcUndecodable cause => (.done (some cause), [], s)
  | .call input => let (reply, log, s) := s.call input; (.rpc reply, log, s)
  | .closeClient => (.done none, [], s)
  | .serve p place cause => let (fault, log) := s.serve p place cause; (.done fault, log, s)
  | .listen p => (.done (listenFault? (s.address p)), [], s)
  | .shutdown p ctx => let (fault, log, s) := s.shutdown p ctx; (.done fault, log, s)

/-- What one request shows: the answer, the lines that were written, and the ledger after it. -/
structure Record where
  reply : Reply
  log : List Text
  ledger : Ledger

/-- Answers requests one after the other. -/
def session (s : Service) : List Request → List Record
  | [] => []
  | r :: rs =>
    let (reply, log, after) := s.handle r
    let lines := (LogLine.written s.logsDebug log).flatMap LogLine.entries
    ⟨reply, lines, after.ledger⟩ :: after.session rs

end Service

end TinyLisp

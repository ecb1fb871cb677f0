import TinyLisp.Service.Basic
import TinyLisp.Service.Exposition
import TinyLisp.Text.Blank
import TinyLisp.Text.Percent

/-!
The service over HTTP: one place evaluates the body that is sent to it, one answers as long as the
service runs, and one shows the ledger.
-/

namespace TinyLisp

structure HttpRequest where
  method : Text
  /-- What follows the host: a path, with its query and fragment. -/
  target : Text
  body : Source
  ctx : Option ContextEnd

structure HttpReply where
  status : Nat
  headers : List (String × String)
  body : Text
  deriving DecidableEq, Repr

namespace HttpRequest

/-- The methods that have a meaning. -/
def methods : List String :=
  ["CONNECT", "DELETE", "GET", "HEAD", "OPTIONS", "PATCH", "POST", "PUT", "TRACE"]

def isMethod (t : Text) : Bool := t.isOneOf methods

/-- The method of a request; one that is left out is a question. -/
def verb (r : HttpRequest) : Text := if r.method = [] then "GET" else r.method

/-- What stands in a text before a byte. -/
def upTo (b : UInt8) (t : Text) : Text := t.takeWhile (· ≠ b)

/-- The path as it was sent. What stands before its first slash still belongs to the host. -/
def path (r : HttpRequest) : Text := (upTo 63 (upTo 35 r.target)).dropWhile (· ≠ 47)

end HttpRequest

/-- The places of the service. -/
inductive Route where
  | health
  | metrics
  | evaluation
  deriving DecidableEq, Repr

/-- The method that a place is asked with. -/
def Route.method : Route → Text
  | .health | .metrics => "GET"
  | .evaluation => "POST"

namespace HttpReply

def plainText : String × String := ("Content-Type", "text/plain; charset=utf-8")

/-- A good answer. -/
def ok (body : Text) : HttpReply := ⟨200, [plainText], body⟩

/-- An answer that says what is wrong. -/
def error (status : Nat) (message : Text) : HttpReply :=
  ⟨status, [plainText, ("X-Content-Type-Options", "nosniff")], message ++ "\n"⟩

def notFound : HttpReply := error 404 "404 page not found"

def methodNotAllowed : HttpReply := ⟨405, [], []⟩

def metrics (l : Ledger) : HttpReply :=
  ⟨200, [("Content-Type", "text/plain; version=0.0.4; charset=utf-8; escaping=values")],
    l.exposition⟩

/-- The answer to a request whose expression was evaluated, and what is logged with it. -/
def ofEvaluated (e : Evaluated) : HttpReply × List LogLine :=
  match e.outcome with
  | .ok out => (.ok (out ++ "\n"), e.log)
  | .error f =>
    let status := httpStatus (some f)
    let extra : List LogLine :=
      if 500 ≤ status then
        [⟨.error, "http: " ++ Text.decimal status ++ ": " ++ f.message⟩]
      else []
    (.error status f.message, e.log ++ extra)

end HttpReply

/-- Why there is no expression in the body of a request. -/
inductive BodyFault where
  | tooLarge (limit : Nat)
  | broken (cause : Text)
  deriving DecidableEq, Repr

/-- Everything up to the end, which must come within `limit` bytes. -/
def Source.readAtMost (limit : Nat) (s : Source) : Except BodyFault Text :=
  if limit < s.chunks.flatten.length then .error (.tooLarge limit)
  else match s.readAll.1 with
    | .error cause => .error (.broken cause)
    | .ok t => .ok t

namespace Service

/-- The place at a path. Paths are compared as they were sent. -/
def route? (s : Service) (path : Text) : Option Route :=
  if path = ("/health" : Text) then some .health
  else if path = ("/lispust" : Text) then some .evaluation
  else if path = ("/metrics" : Text) ∧ s.exposes then some .metrics
  else none

/-- The end of the context in which a request is handled: its own, or else that of a deadline that
has passed before the request came. -/
def requestEnd (s : Service) (ctx : Option ContextEnd) : Option ContextEnd :=
  match ctx with
  | some reason => some reason
  | none => if s.settings.requestTimeout.nanos ≤ 0 then some .deadlineExceeded else none

/-- The size of the longest body that is read. -/
def bodyLimit (s : Service) : Nat := s.settings.maxBodyBytes.toInt.toNat

/-- Evaluates the body of a request, without the blanks around it. -/
def evaluateBody (s : Service) (r : HttpRequest) : HttpReply × List LogLine × Service :=
  match r.body.readAtMost s.bodyLimit with
  | .error (.tooLarge limit) =>
    (.error 413 ("expression exceeds " ++ Text.decimal limit ++ " bytes"), [], s)
  | .error (.broken cause) => (.error 400 ("reading request body: " ++ cause), [], s)
  | .ok body =>
    let (e, s) := s.run Protocol.http.name (s.requestEnd r.ctx) body.trim
    let (reply, log) := HttpReply.ofEvaluated e
    (reply, log, s)

/-- The answer to a request, what is logged before the request itself is, and the service after
it. -/
def respond (s : Service) (r : HttpRequest) : HttpReply × List LogLine × Service :=
  if !HttpRequest.isMethod r.verb then (.methodNotAllowed, [], s)
  else match s.route? r.path with
    | none => (.notFound, [], s)
    | some route =>
      if r.verb ≠ route.method then (.methodNotAllowed, [], s)
      else match route with
        | .health => (.ok "ok", [], s)
        | .metrics => (.metrics s.ledger, [], s)
        | .evaluation => s.evaluateBody r

/-- The status and size of an answer, as they are logged. The size of the ledger depends on the
times that were taken; nothing is sent for an empty one. -/
def loggedAnswer (s : Service) (r : HttpRequest) (reply : HttpReply) : Text :=
  if s.route? r.path = some .metrics ∧ reply.status = 200 then
    if reply.body = [] then "0 0B" else "200 <size>B"
  else Text.decimal reply.status ++ " " ++ Text.decimal reply.body.length ++ "B"

/-- The line logged for each request. -/
def requestLine (s : Service) (r : HttpRequest) (reply : HttpReply) : LogLine :=
  ⟨.debug, "http: " ++ r.verb ++ " " ++ r.path.unescape ++ " " ++
    s.loggedAnswer r reply ++ " " ++ elapsed⟩

/-- Handles a request over HTTP. -/
def http (s : Service) (r : HttpRequest) : HttpReply × List LogLine × Service :=
  let (reply, log, after) := s.respond r
  (reply, log ++ [s.requestLine r reply], after)

end Service

end TinyLisp

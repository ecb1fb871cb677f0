import TinyLisp.Service.Basic

/-!
The service over gRPC: a method that takes an expression and gives its value.
-/

namespace TinyLisp

structure RpcReply where
  code : RpcCode
  /-- The value, or what is wrong. -/
  text : Text
  deriving DecidableEq, Repr

def RpcReply.ofEvaluated (e : Evaluated) : RpcReply :=
  match e.outcome with
  | .ok out => ⟨.ok, out⟩
  | .error f => ⟨rpcCode (some f), f.message⟩

namespace Wire

/-- The number of bytes that a length takes, seven bits to a byte. -/
def varintSize (n : Nat) : Nat :=
  if n < 128 then 1 else varintSize (n / 128) + 1

/-- The size of the message that carries an expression of `n` bytes: a tag, the length and the
bytes, and nothing at all for no bytes. -/
def messageSize (n : Nat) : Nat := if n = 0 then 0 else 1 + varintSize n + n

/-- What a message may have beyond the expression in it. -/
def overhead : Int64 := 64

end Wire

namespace Service

/-- The size of the longest message that is taken. The sum wraps around at 64 bits. -/
def messageLimit (s : Service) : Int64 := s.settings.maxBodyBytes + Wire.overhead

/-- Whether a message is too long for the service. An empty one never is. -/
def refuses (s : Service) (size : Nat) : Bool :=
  size ≠ 0 && s.messageLimit.toInt < (size : Int)

/-- The method itself, as the server calls it. -/
def rpc (s : Service) (ctx : Option ContextEnd) (input : Text) :
    RpcReply × List LogLine × Service :=
  let (e, s) := s.run Protocol.grpc.name ctx input
  (.ofEvaluated e, e.log, s)

/-- The line logged for each call. -/
def callLine (reply : RpcReply) : LogLine :=
  ⟨.debug, "grpc: /lispust.Lispust/Run " ++ Text.ofString reply.code.name ++ " " ++ elapsed⟩

/-- A call from a client over a connection. Only UTF-8 can be sent, and only to a server that was
not stopped. -/
def call (s : Service) (input : Text) : RpcReply × List LogLine × Service :=
  let size := Wire.messageSize input.length
  if s.grpcStopped then (⟨.unavailable, []⟩, [], s)
  else if !input.isUtf8 then (⟨.internal, []⟩, [], s)
  else if s.refuses size then
    (⟨.resourceExhausted, "grpc: received message larger than max (" ++ Text.decimal size ++
      " vs. " ++ Text.decimal s.messageLimit.toInt ++ ")"⟩, [], s)
  else
    let (reply, log, s) := s.rpc none input
    (reply, log ++ [callLine reply], s)

end Service

end TinyLisp

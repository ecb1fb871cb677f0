import TinyLisp.Duration
import TinyLisp.Failure
import TinyLisp.Target

/-!
Calls of a remote service. There is no network through which it could be reached.
-/

namespace TinyLisp

namespace Client

/-- Why nobody can be called at a target. -/
inductive LookupFault where
  | missingAddress
  | missingPort
  /-- No address can be read, even with the usual `port` behind it. -/
  | badAddress (address port : Text) (fault : AddressFault)
  | unwantedHost (host : Text)
  | emptyEndpoint
  deriving DecidableEq, Repr

def LookupFault.message : LookupFault → Text
  | .missingAddress => "dns resolver: missing address"
  | .missingPort => "dns resolver: missing port after port-separator colon"
  | .badAddress address port fault =>
    "invalid target address " ++ address ++ ", error info: " ++
      fault.message (address ++ ":" ++ port)
  | .unwantedHost host => "invalid (non-empty) authority: " ++ host
  | .emptyEndpoint => "passthrough: received empty target in Build()"

/-- Where a call goes. -/
inductive Contact where
  | address (t : Text)
  | socket (path : Text)
  deriving DecidableEq, Repr

def Contact.unreachable : Contact → Text
  | .address t => "dial tcp " ++ t ++ ": connect: network is unreachable"
  | .socket path => "dial unix " ++ path ++ ": connect: no such file or directory"

/-- The address that a text spells, with the usual `port` if it names none. -/
def addressAt (t port : Text) : Except LookupFault Address :=
  if t = [] then .error .missingAddress
  else if t.isIp then .ok ⟨t, port⟩
  else match Address.parse t with
    | .ok a =>
      if a.port = [] then .error .missingPort
      else .ok ⟨if a.host = [] then "localhost" else a.host, a.port⟩
    | .error _ => (Address.parse (t ++ ":" ++ port)).mapError (.badAddress t port)

/-- Where a name is called. Whoever is to be asked for its address must be one who can be asked,
but a number needs no asking. -/
def lookup (host endpoint : Text) : Except LookupFault Contact := do
  let a ← addressAt endpoint "443"
  if a.host.isIpv4 then return .address (a.host ++ ":" ++ a.port)
  else if a.host.isIpv6 then return .address ("[" ++ a.host ++ "]:" ++ a.port)
  else if host = [] then return .address endpoint
  else
    let _ ← addressAt host "53"
    return .address endpoint

/-- Where a target is called. -/
def contact (t : Target) : Except LookupFault Contact :=
  match t.scheme with
  | .dns => lookup t.host t.endpoint
  | .passthrough =>
    if t.endpoint = [] then .error .emptyEndpoint else .ok (.address t.endpoint)
  | .unix => if t.host ≠ [] then .error (.unwantedHost t.host) else .ok (.socket t.path)
  | .unixAbstract =>
    if t.host ≠ [] then .error (.unwantedHost t.host) else .ok (.socket ("@" ++ t.path))

/-- Why a call came to nothing. -/
inductive CallFault where
  | badTarget (addr shown : Text) (fault : TargetFault)
  | noContact (addr : Text) (fault : LookupFault)
  | ended (addr : Text) (reason : ContextEnd)
  | unreachable (addr : Text) (contact : Contact)
  deriving DecidableEq, Repr

def CallFault.message : CallFault → Text
  | .badTarget addr shown fault =>
    "connecting to " ++ addr ++ ": parse " ++ shown.quote ++ ": " ++ fault.message
  | .noContact addr fault =>
    "calling " ++ addr ++ ": failed to exit idle mode: " ++ fault.message
  | .ended addr reason =>
    "calling " ++ addr ++ ": rpc error: code = " ++
      (rpcCode (some (.ended reason))).name ++ " desc = " ++ reason.message
  | .unreachable addr contact =>
    "calling " ++ addr ++ ": rpc error: code = Unavailable desc = connection error: desc = " ++
      Text.quote ("transport: Error while dialing: " ++ contact.unreachable)

/-- The end of a call to an address within a time. Somebody to call is found before the time and
the context are looked at. -/
def call (ctx : Option ContextEnd) (timeout : Duration) (addr : Text) : CallFault :=
  match Target.parse addr with
  | .error (shown, fault) => .badTarget addr shown fault
  | .ok target =>
    match contact target with
    | .error fault => .noContact addr fault
    | .ok contact =>
      match ctx with
      | some reason => .ended addr reason
      | none =>
        if timeout.nanos ≤ 0 then .ended addr .deadlineExceeded else .unreachable addr contact

end Client

end TinyLisp

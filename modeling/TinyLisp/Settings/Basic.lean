import TinyLisp.Address
import TinyLisp.Duration
import TinyLisp.Text.Quoted

/-!
The settings of the servers, their defaults, and what makes them invalid.
-/

namespace TinyLisp

structure Settings where
  /-- The file the settings were read from; empty if there was none. -/
  fileName : Text
  /-- Where to serve HTTP; empty for nowhere. -/
  httpAddr : Text
  /-- Where to serve gRPC; empty for nowhere. -/
  grpcAddr : Text
  /-- How long one HTTP request may take. -/
  requestTimeout : Duration
  /-- How long to wait for open requests when stopping. -/
  shutdownTimeout : Duration
  /-- The size of the longest expression that is accepted. -/
  maxBodyBytes : Int64
  /-- Whether debug lines are logged. -/
  debug : Bool
  deriving DecidableEq, Repr

/-- One reason why settings are invalid. -/
inductive SettingsProblem where
  | noAddress
  | badAddress (name : String) (address : Text) (fault : AddressFault)
  | requestTimeout (d : Duration)
  | shutdownTimeout (d : Duration)
  | maxBodyBytes (n : Int64)
  deriving DecidableEq, Repr

def SettingsProblem.message : SettingsProblem → Text
  | .noAddress => "at least one of http_addr and grpc_addr must be set"
  | .badAddress name address fault => name ++ ": " ++ fault.message address
  | .requestTimeout d => "request_timeout must be positive, got " ++ d.render
  | .shutdownTimeout d => "shutdown_timeout must not be negative, got " ++ d.render
  | .maxBodyBytes n => "max_body_bytes must be positive, got " ++ Text.decimal n.toInt

namespace Settings

def default : Settings where
  fileName := []
  httpAddr := "127.0.0.1:8080"
  grpcAddr := "[::1]:50051"
  requestTimeout := .seconds 5
  shutdownTimeout := .seconds 5
  maxBodyBytes := 65536
  debug := false

/-- An address that is set must have a host and a port. -/
def addressProblems (name : String) (address : Text) : List SettingsProblem :=
  if address = [] then []
  else match Address.parse address with
    | .ok _ => []
    | .error fault => [.badAddress name address fault]

/-- Everything that is wrong with the settings. -/
def problems (s : Settings) : List SettingsProblem :=
  (if s.httpAddr = [] ∧ s.grpcAddr = [] then [.noAddress] else []) ++
  addressProblems "http_addr" s.httpAddr ++ addressProblems "grpc_addr" s.grpcAddr ++
  (if s.requestTimeout.nanos ≤ 0 then [.requestTimeout s.requestTimeout] else []) ++
  (if s.shutdownTimeout.nanos < 0 then [.shutdownTimeout s.shutdownTimeout] else []) ++
  (if s.maxBodyBytes ≤ 0 then [.maxBodyBytes s.maxBodyBytes] else [])

/-- Nothing is wrong with the settings. -/
def Valid (s : Settings) : Prop := s.problems = []

instance (s : Settings) : Decidable s.Valid :=
  inferInstanceAs (Decidable (s.problems = []))

theorem valid_iff {s : Settings} :
    s.Valid ↔ ¬(s.httpAddr = [] ∧ s.grpcAddr = []) ∧
      addressProblems "http_addr" s.httpAddr = [] ∧ addressProblems "grpc_addr" s.grpcAddr = [] ∧
      0 < s.requestTimeout.nanos ∧ 0 ≤ s.shutdownTimeout.nanos ∧ 0 < s.maxBodyBytes := by
  simp [Valid, problems, Int64.not_le]

theorem Valid.requestTimeout_pos {s : Settings} (h : s.Valid) : 0 < s.requestTimeout.nanos :=
  (valid_iff.mp h).2.2.2.1

theorem Valid.maxBodyBytes_pos {s : Settings} (h : s.Valid) : 0 < s.maxBodyBytes :=
  (valid_iff.mp h).2.2.2.2.2

end Settings

/-- The texts of some problems in bytewise order. -/
def problemTexts (problems : List SettingsProblem) : List Text :=
  (problems.map SettingsProblem.message).mergeSort Text.le

/-- The problems one below the other, under their number. -/
def problemList (problems : List SettingsProblem) : Text :=
  let count : Text :=
    if problems.length = 1 then "1 error" else Text.decimal problems.length ++ " errors"
  let points : List Text := (problemTexts problems).map ("\n\t* " ++ ·)
  count ++ " occurred:" ++ points.flatten ++ "\n\n"

end TinyLisp

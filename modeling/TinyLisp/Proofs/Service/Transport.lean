import Mathlib.Algebra.Group.Int.Defs
import Mathlib.Algebra.Group.Nat.Defs
import TinyLisp.Proofs.Evaluation
import TinyLisp.Proofs.Token.Layout
import TinyLisp.Service.Session

/-!
The transports of a service beside one another: what they take, and what they answer.

An expression gets the same answer over HTTP, over gRPC and on the command line, although only HTTP
trims it. HTTP takes what is no longer than the limit of the settings. What gRPC takes is bounded by
a sum that wraps around: for limits short of the greatest numbers it takes all that HTTP takes, and
for those it takes nothing but the empty expression.
-/

namespace TinyLisp

section Limit

variable {s : Service} {n : Nat}

theorem Wire.varintSize_le (k : Nat) (h : n < 128 ^ (k + 1)) : varintSize n ≤ k + 1 := by
  induction k generalizing n with
  | zero =>
    rw [varintSize, if_pos (by omega)]
  | succ k ih =>
    rw [varintSize]
    split
    · omega
    · have hdiv : n / 128 < 128 ^ (k + 1) := by
        rw [Nat.pow_succ] at h
        exact Nat.div_lt_of_lt_mul (Nat.mul_comm _ _ ▸ h)
      exact Nat.succ_le_succ (ih hdiv)

theorem Wire.messageSize_le (h : n < 2 ^ 31) : messageSize n ≤ n + 6 := by
  have hv := varintSize_le 4 (n := n) (by omega)
  rw [messageSize]
  split <;> omega

theorem Settings.Valid.toInt_maxBodyBytes_pos {c : Settings} (h : c.Valid) :
    0 < c.maxBodyBytes.toInt :=
  Int64.lt_iff_toInt_lt.mp h.maxBodyBytes_pos

theorem Service.toInt_messageLimit (h : s.settings.Valid) :
    s.messageLimit.toInt =
      if s.settings.maxBodyBytes.toInt < 2 ^ 63 - 64 then s.settings.maxBodyBytes.toInt + 64
      else s.settings.maxBodyBytes.toInt + 64 - 2 ^ 64 := by
  have hpos := h.toInt_maxBodyBytes_pos
  have hlt := s.settings.maxBodyBytes.toInt_lt
  have hoverhead : Wire.overhead.toInt = 64 := rfl
  rw [Service.messageLimit, Int64.toInt_add, hoverhead, Int.bmod]
  split <;> split <;> omega

theorem Service.messageSize_le_messageLimit_iff (h : s.settings.Valid)
    (hn : (n : Int) ≤ s.settings.maxBodyBytes.toInt) (hn' : n < 2 ^ 31) :
    (Wire.messageSize n : Int) ≤ s.messageLimit.toInt ↔
      s.settings.maxBodyBytes.toInt < 2 ^ 63 - 64 := by
  have hsize := Wire.messageSize_le hn'
  have hlt := s.settings.maxBodyBytes.toInt_lt
  rw [Service.toInt_messageLimit h]
  split <;> omega

theorem Service.refuses_messageSize_iff (hs : s.settings.Valid)
    (hn : (n : Int) ≤ s.settings.maxBodyBytes.toInt) (hn' : n < 2 ^ 31) :
    s.refuses (Wire.messageSize n) ↔ n ≠ 0 ∧ 2 ^ 63 - 64 ≤ s.settings.maxBodyBytes.toInt := by
  have hle := Service.messageSize_le_messageLimit_iff hs hn hn'
  have hzero : Wire.messageSize n = 0 ↔ n = 0 := by
    rw [Wire.messageSize]
    split <;> omega
  simp only [Service.refuses, Bool.and_eq_true, decide_eq_true_eq, ne_eq, hzero]
  omega

end Limit

section Rpc

variable {s : Service} {b : Text}

/-- The answer over gRPC to an expression that came to a value or a fault. -/
def RpcReply.ofRun : Except Fault Text → RpcReply
  | .ok out => ⟨.ok, out⟩
  | .error f => ⟨.invalidArgument, f.message⟩

theorem RpcReply.ofEvaluated_evaluate (transport b : Text) :
    RpcReply.ofEvaluated (evaluate transport none b) = .ofRun b.run := by
  rw [RpcReply.ofEvaluated, outcome_evaluate]
  cases h : b.run with
  | ok out => rfl
  | error f => exact congrArg (RpcReply.mk · f.message) (Text.rpcCode_of_run h)

theorem Service.reply_rpc (s : Service) (b : Text) : (s.rpc none b).1 = .ofRun b.run :=
  RpcReply.ofEvaluated_evaluate _ b

/-- A call that is neither turned away nor refused is one of the method. -/
theorem Service.call_eq (hlive : s.grpcStopped = false) (hb : b.isUtf8)
    (hsize : s.refuses (Wire.messageSize b.length) = false) :
    s.call b = ((s.rpc none b).1, (s.rpc none b).2.1 ++ [callLine (s.rpc none b).1],
      (s.rpc none b).2.2) := by
  rw [Service.call]
  simp [hlive, hb, hsize]

theorem Service.reply_call (hlive : s.grpcStopped = false) (hb : b.isUtf8)
    (hsize : s.refuses (Wire.messageSize b.length) = false) : (s.call b).1 = .ofRun b.run := by
  rw [Service.call_eq hlive hb hsize]
  exact s.reply_rpc b

theorem Service.code_call_refused (hlive : s.grpcStopped = false) (hb : b.isUtf8)
    (hsize : s.refuses (Wire.messageSize b.length)) :
    (s.call b).1.code = .resourceExhausted := by
  rw [Service.call]
  simp [hlive, hb, hsize]

theorem RpcReply.code_ofRun_ne (o : Except Fault Text) : (ofRun o).code ≠ .resourceExhausted := by
  cases o with
  | ok out => simp [ofRun]
  | error f => simp [ofRun]

/-- Of what HTTP takes, gRPC refuses nothing as too long as long as its own limit does not wrap
around, and everything but the empty expression once it does. -/
theorem Service.call_refused_iff_limit_wraps (s : Service) (hs : s.settings.Valid)
    (hlive : s.grpcStopped = false) (b : Text) (hu : b.isUtf8)
    (hb : (b.length : Int) ≤ s.settings.maxBodyBytes.toInt) (hb' : b.length < 2 ^ 31) :
    ((Wire.messageSize b.length : Int) ≤ s.messageLimit.toInt ↔
      s.settings.maxBodyBytes.toInt < 2 ^ 63 - 64) ∧
    ((s.call b).1.code = .resourceExhausted ↔
      b ≠ [] ∧ 2 ^ 63 - 64 ≤ s.settings.maxBodyBytes.toInt) := by
  refine ⟨Service.messageSize_le_messageLimit_iff hs hb hb', ?_⟩
  have hrefuses := Service.refuses_messageSize_iff hs hb hb'
  rw [ne_eq, List.length_eq_zero_iff] at hrefuses
  rw [ne_eq, ← hrefuses]
  cases hsize : s.refuses (Wire.messageSize b.length) with
  | true => simp [Service.code_call_refused hlive hu hsize]
  | false => simp [Service.reply_call hlive hu hsize, RpcReply.code_ofRun_ne]

theorem Service.call_default_not_refused :
    let s := Service.start .default true true true
    let b := Text.ofString "()"
    (Wire.messageSize b.length : Int) ≤ s.messageLimit.toInt ∧
      (s.call b).1.code ≠ .resourceExhausted := by
  intro s b
  obtain ⟨hle, hcode⟩ := s.call_refused_iff_limit_wraps (by decide) rfl b (Text.isUtf8_ofChars _)
    (by decide) (by decide)
  exact ⟨hle.mpr (by decide), fun h => absurd (hcode.mp h).2 (by decide)⟩

/-- With the greatest limit there is, a message of a few bytes is too long. -/
theorem Service.call_refused_within_limit :
    let s := Service.start { Settings.default with maxBodyBytes := 9223372036854775807 } true true
      true
    let b := Text.ofString "(+ 1 2)"
    s.settings.Valid ∧ b.isUtf8 ∧ (b.length : Int) ≤ s.settings.maxBodyBytes.toInt ∧
      b.length < 2 ^ 31 ∧ s.messageLimit.toInt < Wire.messageSize b.length ∧
      (s.call b).1.code = .resourceExhausted := by
  intro s b
  have hs : s.settings.Valid := by decide
  have hu : b.isUtf8 := Text.isUtf8_ofChars _
  have hb : (b.length : Int) ≤ s.settings.maxBodyBytes.toInt := by decide
  have hb' : b.length < 2 ^ 31 := by decide
  have hsize := (Service.refuses_messageSize_iff hs hb hb').mpr (by decide)
  have hle := (Service.messageSize_le_messageLimit_iff hs hb hb').not.mpr (by decide)
  exact ⟨hs, hu, hb, hb', Int.not_le.mp hle, Service.code_call_refused rfl hu hsize⟩

end Rpc

section Http

variable {s : Service} {r : HttpRequest} {b : Text}

/-- The request asks for the value of the text `b`, all of which comes in, in time. -/
structure HttpRequest.Posts (r : HttpRequest) (b : Text) : Prop where
  verb : r.verb = Text.ofString "POST"
  path : r.path = Text.ofString "/lispust"
  live : r.ctx = none
  bytes : r.body.chunks.flatten = b
  whole : r.body.breaksWith = none

theorem Service.respond_evaluation (s : Service) (hv : r.verb = Text.ofString "POST")
    (hp : r.path = Text.ofString "/lispust") : s.respond r = s.evaluateBody r := by
  have hroute : s.route? r.path = some .evaluation := by
    rw [hp, Service.route?, if_neg (by decide), if_pos rfl]
  have hmethod : HttpRequest.isMethod r.verb := by
    rw [hv]
    rfl
  have hverb : ¬r.verb ≠ Route.evaluation.method := not_not.mpr hv
  rw [Service.respond, hmethod, if_neg (by decide), hroute]
  exact if_neg hverb

theorem Source.readAtMost_of_whole {source : Source} (h : source.breaksWith = none) (limit : Nat) :
    source.readAtMost limit =
      if limit < source.chunks.flatten.length then .error (.tooLarge limit)
      else .ok source.chunks.flatten := by
  rw [Source.readAtMost, Source.readAll, h]

/-- The answer over HTTP to an expression that came to a value or a fault. -/
def HttpReply.ofRun : Except Fault Text → HttpReply
  | .ok out => .ok (out ++ Text.ofString "\n")
  | .error f => .error 400 f.message

theorem HttpReply.ofEvaluated_evaluate (transport b : Text) :
    HttpReply.ofEvaluated (evaluate transport none b) =
      (.ofRun b.run, (evaluate transport none b).log) := by
  rw [HttpReply.ofEvaluated, outcome_evaluate]
  cases h : b.run with
  | ok out => rfl
  | error f => simp [Except.mapError, Text.httpStatus_of_run h, Failure.message, ofRun]

theorem Service.bodyLimit_lt_iff (hs : s.settings.Valid) (n : Nat) :
    s.bodyLimit < n ↔ s.settings.maxBodyBytes.toInt < n := by
  have hpos := hs.toInt_maxBodyBytes_pos
  rw [Service.bodyLimit]
  omega

theorem Service.requestEnd_none (hs : s.settings.Valid) : s.requestEnd none = none := by
  rw [Service.requestEnd, if_neg (Int64.not_le.mpr hs.requestTimeout_pos)]

theorem HttpRequest.Posts.http_eq (h : r.Posts b) (hs : s.settings.Valid)
    (hshort : ¬s.bodyLimit < b.length) :
    s.http r = (.ofRun b.run,
      (evaluate Protocol.http.name none b.trim).log ++ [s.requestLine r (.ofRun b.run)],
      s.enter Protocol.http.name (evaluate Protocol.http.name none b.trim).result) := by
  have hread : r.body.readAtMost s.bodyLimit = .ok b := by
    rw [Source.readAtMost_of_whole h.whole, h.bytes, if_neg hshort]
  have hreply := HttpReply.ofEvaluated_evaluate Protocol.http.name b.trim
  rw [b.run_trim] at hreply
  rw [Service.http, s.respond_evaluation h.verb h.path, Service.evaluateBody, hread, h.live,
    s.requestEnd_none hs]
  simp only [Service.run, hreply]

theorem HttpRequest.Posts.http_tooLarge (h : r.Posts b) (hlong : s.bodyLimit < b.length) :
    s.http r =
      let reply := .error 413 ("expression exceeds " ++ Text.decimal s.bodyLimit ++ " bytes")
      (reply, [s.requestLine r reply], s) := by
  have hread : r.body.readAtMost s.bodyLimit = .error (.tooLarge s.bodyLimit) := by
    rw [Source.readAtMost_of_whole h.whole, h.bytes, if_pos hlong]
  rw [Service.http, s.respond_evaluation h.verb h.path, Service.evaluateBody, hread]
  rfl

end Http

section Agreement

/-- Over HTTP, over gRPC and on the command line the same bytes come to the same value or the same
fault, although HTTP alone trims them. Bytes past the limit of HTTP are not evaluated there. -/
theorem Service.transports_agree (s : Service) (hs : s.settings.Valid) (b : Text) :
    (∀ r : HttpRequest, r.Posts b → (b.length : Int) ≤ s.settings.maxBodyBytes.toInt →
      (s.http r).2.1 = (evaluate Protocol.http.name none b.trim).log ++
        [s.requestLine r (s.http r).1] ∧
      (∀ out, b.run = .ok out →
        (s.http r).1.status = 200 ∧ (s.http r).1.body = out ++ Text.ofString "\n") ∧
      (∀ f, b.run = .error f →
        (s.http r).1.status = 400 ∧ (s.http r).1.body = f.message ++ Text.ofString "\n")) ∧
    (∀ r : HttpRequest, r.Posts b → s.settings.maxBodyBytes.toInt < b.length →
      (s.http r).1.status = 413 ∧ (s.http r).2.1 = [s.requestLine r (s.http r).1] ∧
      (s.http r).2.2 = s) ∧
    (∀ out, b.run = .ok out → (s.rpc none b).1 = ⟨.ok, out⟩) ∧
    (∀ f, b.run = .error f → (s.rpc none b).1 = ⟨.invalidArgument, f.message⟩) ∧
    (b.isUtf8 → s.grpcStopped = false → s.refuses (Wire.messageSize b.length) = false →
      (s.call b).1 = (s.rpc none b).1) ∧
    (s.runNamed "cli" b none).1 = .ran (b.run.mapError .fault) := by
  refine ⟨?_, ?_, ?_, ?_, ?_, ?_⟩
  · intro r hr hb
    have hshort : ¬s.bodyLimit < b.length := by
      rw [s.bodyLimit_lt_iff hs]
      omega
    rw [hr.http_eq hs hshort]
    refine ⟨rfl, ?_, ?_⟩
    · intro out hout
      rw [hout]
      exact ⟨rfl, rfl⟩
    · intro f hf
      rw [hf]
      exact ⟨rfl, rfl⟩
  · intro r hr hb
    rw [hr.http_tooLarge ((s.bodyLimit_lt_iff hs _).mpr hb)]
    exact ⟨rfl, rfl, rfl⟩
  · intro out hout
    rw [s.reply_rpc, hout]
    rfl
  · intro f hf
    rw [s.reply_rpc, hf]
    rfl
  · intro hu hlive hsize
    rw [s.reply_rpc, Service.reply_call hlive hu hsize]
  · have hcli : Text.isUtf8 "cli" := Text.isUtf8_ofChars _
    rw [Service.runNamed, hcli]
    simp only [Bool.not_true, Bool.false_eq_true, and_false, if_false]
    exact congrArg Reply.ran (outcome_evaluate _ b)

/-- Blanks of three bytes around an expression that comes in two chunks are trimmed in one place and
skipped in the others. -/
theorem Service.transports_agree_blanks :
    let s := Service.start .default true true true
    let b := Text.ofString "\u3000()\u3000"
    let r : HttpRequest := ⟨"POST", "/lispust", ⟨["\u3000(", ")\u3000"], none⟩, none⟩
    s.settings.Valid ∧ r.Posts b ∧ b.run = .ok (Text.ofString "true") ∧
      (s.http r).1.status = 200 ∧ (s.http r).1.body = Text.ofString "true\n" ∧
      (s.rpc none b).1 = ⟨.ok, Text.ofString "true"⟩ ∧ (s.call b).1 = (s.rpc none b).1 := by
  intro s b r
  have hs : s.settings.Valid := by decide
  have hr : r.Posts b := ⟨rfl, by decide, rfl, by decide, rfl⟩
  have hrun : b.run = .ok (Text.ofString "true") := by
    have hscan : tokensOf "\u3000()\u3000".toList = [.leftParen, .rightParen] := by decide
    have hparse := Text.parse_ofChars hscan rfl (.empty rfl rfl)
    exact Text.run_eq_ok_iff.mpr ⟨_, (b.eval_eq_iff _).mpr ⟨_, hparse, rfl⟩, rfl⟩
  have hsize : s.refuses (Wire.messageSize b.length) = false := by
    rw [Bool.eq_false_iff, ne_eq, Service.refuses_messageSize_iff hs (by decide) (by decide)]
    decide
  obtain ⟨hhttp, -, hrpc, -, hcall, -⟩ := s.transports_agree hs b
  obtain ⟨-, hok, -⟩ := hhttp r hr (by decide)
  obtain ⟨hstatus, hbody⟩ := hok _ hrun
  exact ⟨hs, hr, hrun, hstatus, hbody, hrpc _ hrun, hcall (Text.isUtf8_ofChars _) rfl hsize⟩

end Agreement

end TinyLisp

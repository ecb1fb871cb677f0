import TinyLisp.Proofs.Failure
import TinyLisp.Proofs.Service.Ledger
import TinyLisp.Proofs.Service.Transport

/-!
The ledger of a service against the requests that it was sent.

A request that asks for an evaluation either comes to one run, which is entered once under its
transport and result, or is too large and leaves no trace. What is entered does not depend on the
ledger, so the ledger after any requests is settled by how often each of them occurs. Status and
code of an answer follow from the result that was entered.
-/

namespace TinyLisp

/-- A run of the evaluator: over which transport, in which context and on what text. -/
structure Job where
  transport : Text
  ctx : Option ContextEnd
  input : Text

/-- How the run ends, by the failure that it gives back. -/
def Job.evaluated (j : Job) : Evaluated := evaluate j.transport j.ctx j.input

namespace Service

/-- The request asks for an evaluation, and nothing but its size can be in the way of that. Over
HTTP that is a body which comes in whole, and over gRPC a call that reaches the method. -/
def Takes (s : Service) : Request → Prop
  | .run transport _ _ => transport.isUtf8 ∧ transport ≠ Text.ofString Protocol.http.name ∧
      transport ≠ Text.ofString Protocol.grpc.name
  | .http r => r.verb = Text.ofString "POST" ∧ r.path = Text.ofString "/lispust" ∧
      r.body.breaksWith = none
  | .rpc _ _ => True
  | .call input => s.grpcStopped = false ∧ input.isUtf8 ∧
      s.refuses (Wire.messageSize input.length) = false
  | _ => False

/-- The run that a request comes to. A body that is too large comes to none. -/
def job? (s : Service) : Request → Option Job
  | .run transport input ctx => some ⟨transport, ctx, input⟩
  | .http r =>
    let body : Text := r.body.chunks.flatten
    if s.bodyLimit < body.length then none
    else some ⟨Text.ofString Protocol.http.name, s.requestEnd r.ctx, body.trim⟩
  | .rpc input ctx => some ⟨Text.ofString Protocol.grpc.name, ctx, input⟩
  | .call input => some ⟨Text.ofString Protocol.grpc.name, none, input⟩
  | _ => none

/-- The transport of a request that came to a run, and what the failure given back, if any, is
sorted as. -/
def entryOf? (s : Service) (r : Request) : Option (Text × ResultLabel) :=
  (s.job? r).map fun j => (j.transport, j.evaluated.result)

/-- The same service with another ledger. -/
def withLedger (s : Service) (l : Ledger) : Service := { s with ledger := l }

theorem takes_withLedger (s : Service) (l : Ledger) : (s.withLedger l).Takes = s.Takes := rfl

theorem entryOf?_withLedger (s : Service) (l : Ledger) : (s.withLedger l).entryOf? = s.entryOf? :=
  rfl

/-- The service after requests, one after the other. -/
def after (s : Service) (rs : List Request) : Service :=
  rs.foldl (fun s r => (s.handle r).2.2) s

end Service

/-- What the failure in a reply, if any, is sorted as, where a reply gives it as it is. -/
def Reply.result? : Reply → Option ResultLabel
  | .ran (.ok _) => some .ok
  | .ran (.error f) => some f.result
  | _ => none

/-- The reply is an answer over HTTP with the given status. -/
def Reply.hasStatus (n : Nat) : Reply → Bool
  | .http reply => reply.status = n
  | _ => false

/-- The reply is an answer over gRPC with one of the given codes. -/
def Reply.hasCode (cs : List RpcCode) : Reply → Bool
  | .rpc reply => reply.code ∈ cs
  | _ => false

section Answer

variable {l : ResultLabel} {c : RpcCode}

/-- The status of an answer to a request that ended in the given result. -/
def ResultLabel.status : ResultLabel → Nat
  | .ok => 200
  | .parseError | .evalError => 400
  | .canceled => 503
  | .error => 500

theorem HttpReply.status_ofEvaluated (e : Evaluated) :
    (HttpReply.ofEvaluated e).1.status = e.result.status := by
  rw [HttpReply.ofEvaluated, Evaluated.result, Evaluated.failure?]
  cases e.outcome with
  | ok out => rfl
  | error f =>
    have hne := f.result_ne_ok
    simp only [HttpReply.error, httpStatus, resultOf]
    cases h : f.result with
    | ok => exact absurd h hne
    | _ => rfl

/-- The code is one that answers a request which ended in the given result. -/
def ResultLabel.HasCode : ResultLabel → RpcCode → Prop
  | .ok, c => c = .ok
  | .parseError, c | .evalError, c => c = .invalidArgument
  | .canceled, c => c = .canceled ∨ c = .deadlineExceeded
  | .error, c => c = .internal

theorem ResultLabel.HasCode.eq_ok_iff (h : l.HasCode c) : c = .ok ↔ l = .ok := by
  cases l <;> grind [ResultLabel.HasCode]

theorem ResultLabel.HasCode.eq_invalidArgument_iff (h : l.HasCode c) :
    c = .invalidArgument ↔ l = .parseError ∨ l = .evalError := by
  cases l <;> grind [ResultLabel.HasCode]

theorem ResultLabel.HasCode.eq_canceled_iff (h : l.HasCode c) :
    c = .canceled ∨ c = .deadlineExceeded ↔ l = .canceled := by
  cases l <;> grind [ResultLabel.HasCode]

theorem RpcReply.hasCode_ofEvaluated (e : Evaluated) :
    e.result.HasCode (RpcReply.ofEvaluated e).code := by
  rw [RpcReply.ofEvaluated, Evaluated.result, Evaluated.failure?]
  cases e.outcome with
  | ok out => rfl
  | error f =>
    have hne := f.result_ne_ok
    simp only [rpcCode, resultOf]
    cases h : f.result with
    | ok => exact absurd h hne
    | canceled =>
      simp only [ResultLabel.HasCode]
      split
      · exact .inr rfl
      · exact .inl rfl
    | _ => rfl

theorem result_evaluate_ne_error (transport input : Text) (ctx : Option ContextEnd) :
    (evaluate transport ctx input).result ≠ .error := by
  cases ctx with
  | some reason => cases reason <;> exact nofun
  | none =>
    rw [result_evaluate]
    cases input.eval with
    | ok v => exact nofun
    | error f => cases f <;> exact nofun

end Answer

/-- The reply is what the transport of the run makes of it. -/
inductive Job.Answers (j : Job) : Reply → Prop
  | named (hhttp : j.transport ≠ Text.ofString Protocol.http.name)
      (hgrpc : j.transport ≠ Text.ofString Protocol.grpc.name) :
      j.Answers (.ran j.evaluated.outcome)
  | http (ht : j.transport = Text.ofString Protocol.http.name) :
      j.Answers (.http (HttpReply.ofEvaluated j.evaluated).1)
  | grpc (ht : j.transport = Text.ofString Protocol.grpc.name) :
      j.Answers (.rpc (.ofEvaluated j.evaluated))

namespace Service

section Step

variable {s : Service}

/-- All that a request which is taken can come to: the answer, and the service after it. -/
inductive Handled (s : Service) (r : Request) : Prop
  | ran {j : Job} (hj : s.job? r = some j) (hreply : j.Answers (s.handle r).1)
      (hafter : (s.handle r).2.2 = s.enter j.transport j.evaluated.result)
  | tooLarge {reply : HttpReply} (hj : s.job? r = none) (hreply : (s.handle r).1 = .http reply)
      (hstatus : reply.status = 413) (hafter : (s.handle r).2.2 = s)

theorem handled_http {r : HttpRequest} (h : s.Takes (.http r)) : Handled s (.http r) := by
  obtain ⟨hv, hp, hw⟩ := h
  have hreply : (s.handle (.http r)).1 = .http (s.respond r).1 := rfl
  have hbody := s.respond_evaluation hv hp
  rw [Service.evaluateBody, Source.readAtMost_of_whole hw] at hbody
  by_cases hlong : s.bodyLimit < r.body.chunks.flatten.length
  · rw [if_pos hlong] at hbody
    rw [hbody] at hreply
    exact .tooLarge (if_pos hlong) hreply rfl (congrArg (·.2.2) hbody)
  · rw [if_neg hlong] at hbody
    refine .ran (if_neg hlong) ?_ (congrArg (·.2.2) hbody)
    rw [hreply, hbody]
    exact .http rfl

theorem handled_call {input : Text} (h : s.Takes (.call input)) : Handled s (.call input) := by
  obtain ⟨hlive, hu, hsize⟩ := h
  have hcall := Service.call_eq hlive hu hsize
  have hreply : (s.handle (.call input)).1 = .rpc (s.call input).1 := rfl
  refine .ran rfl ?_ (congrArg (·.2.2) hcall)
  rw [hreply, hcall]
  exact .grpc rfl

theorem handled_run {transport input : Text} {ctx : Option ContextEnd}
    (h : s.Takes (.run transport input ctx)) : Handled s (.run transport input ctx) := by
  obtain ⟨hu, hhttp, hgrpc⟩ := h
  have hrun : s.handle (.run transport input ctx) =
      (.ran (evaluate transport ctx input).outcome, (evaluate transport ctx input).log,
        s.enter transport (evaluate transport ctx input).result) := by
    rw [Service.handle, Service.runNamed, hu, if_neg (by simp)]
    rfl
  refine .ran rfl ?_ (congrArg (·.2.2) hrun)
  rw [hrun]
  exact .named hhttp hgrpc

theorem handled {r : Request} (h : s.Takes r) : Handled s r := by
  match r, h with
  | .run .., h => exact handled_run h
  | .http _, h => exact handled_http h
  | .rpc .., _ => exact .ran rfl (.grpc rfl) rfl
  | .call _, h => exact handled_call h

theorem entryOf?_of_result? {r : Request} (h : s.Takes r) {label : ResultLabel}
    (hl : (s.handle r).1.result? = some label) :
    ∃ transport, s.entryOf? r = some (transport, label) := by
  cases handled h with
  | @ran j hj hreply _ =>
    rw [Service.entryOf?, hj]
    refine ⟨j.transport, ?_⟩
    generalize (s.handle r).1 = reply at hreply hl
    cases hreply with
    | named =>
      rw [Option.map_some, Evaluated.result, Evaluated.failure?]
      cases ho : j.evaluated.outcome with
      | ok out =>
        rw [ho] at hl
        cases hl
        rfl
      | error f =>
        rw [ho] at hl
        cases hl
        rfl
    | http => cases hl
    | grpc => cases hl
  | tooLarge _ hreply _ _ =>
    rw [hreply] at hl
    cases hl

theorem hasStatus_handle {r : Request} (h : s.Takes r) {n : Nat} (hn : n ≠ 413) :
    (s.handle r).1.hasStatus n =
      (s.entryOf? r).any fun e => e.1 = Text.ofString Protocol.http.name ∧ e.2.status = n := by
  cases handled h with
  | ran hj hreply _ =>
    rw [Service.entryOf?, hj, Option.map_some, Option.any_some]
    generalize (s.handle r).1 = reply at hreply
    cases hreply with
    | named hhttp _ => simp [Reply.hasStatus, hhttp]
    | http ht => simp [Reply.hasStatus, ht, HttpReply.status_ofEvaluated]
    | grpc ht =>
      have hne : Text.ofString Protocol.grpc.name ≠ Text.ofString Protocol.http.name := by decide
      simp [Reply.hasStatus, ht, hne]
  | tooLarge hj hreply hstatus _ =>
    rw [Service.entryOf?, hj, hreply]
    simp [Reply.hasStatus, hstatus, Ne.symm hn]

theorem hasCode_handle {r : Request} (h : s.Takes r) {cs : List RpcCode} {q : ResultLabel → Prop}
    [DecidablePred q] (hq : ∀ l c, l.HasCode c → (c ∈ cs ↔ q l)) :
    (s.handle r).1.hasCode cs =
      (s.entryOf? r).any fun e => e.1 = Text.ofString Protocol.grpc.name ∧ q e.2 := by
  cases handled h with
  | @ran j hj hreply _ =>
    rw [Service.entryOf?, hj, Option.map_some, Option.any_some]
    generalize (s.handle r).1 = reply at hreply
    cases hreply with
    | named _ hgrpc => simp [Reply.hasCode, hgrpc]
    | http ht =>
      have hne : Text.ofString Protocol.http.name ≠ Text.ofString Protocol.grpc.name := by decide
      simp [Reply.hasCode, ht, hne]
    | grpc ht =>
      have hcode := hq _ _ (RpcReply.hasCode_ofEvaluated j.evaluated)
      simp only [Reply.hasCode, ht, true_and, hcode]
  | tooLarge hj hreply _ _ =>
    rw [Service.entryOf?, hj, hreply]
    rfl

/-- One request raises one count by one, or none: that is so if its answer says that it is too
large. -/
theorem count_handle {r : Request} (hc : s.counts) (hs : s.ledger.Sorted) (h : s.Takes r) :
    ((s.handle r).1.hasStatus 413 → (s.handle r).2.2.ledger = s.ledger) ∧
    ((s.handle r).2.2.ledger = s.ledger ∨ ∃ transport label, ∀ transport' label',
      (s.handle r).2.2.ledger.count transport' label' = s.ledger.count transport' label' +
        if transport = transport' ∧ label = label' then 1 else 0) := by
  cases handled h with
  | @ran j hj hreply hafter =>
    have hnot : (s.handle r).1.hasStatus 413 = false := by
      generalize (s.handle r).1 = reply at hreply
      cases hreply with
      | named => rfl
      | grpc => rfl
      | http =>
        rw [Reply.hasStatus, HttpReply.status_ofEvaluated]
        cases j.evaluated.result <;> rfl
    rw [hnot, hafter, Service.enter, if_pos hc]
    exact ⟨nofun, .inr ⟨_, _, hs.count_enter _ _⟩⟩
  | tooLarge hj hreply hstatus hafter =>
    rw [hafter]
    exact ⟨fun _ => rfl, .inl rfl⟩

theorem after_handle {r : Request} (hc : s.counts) (h : s.Takes r) :
    (s.handle r).2.2 = s.withLedger (s.ledger.enterAll (s.entryOf? r).toList) := by
  cases handled h with
  | ran hj _ hafter =>
    rw [hafter, Service.enter, if_pos hc, Service.entryOf?, hj]
    rfl
  | tooLarge hj _ _ hafter =>
    rw [hafter, Service.entryOf?, hj]
    rfl

end Step

section Session

variable {s : Service} {rs : List Request}

theorem filterMap_entryOf?_cons (s : Service) (r : Request) (rs : List Request) :
    (r :: rs).filterMap s.entryOf? = (s.entryOf? r).toList ++ rs.filterMap s.entryOf? := by
  rw [List.filterMap_cons]
  cases s.entryOf? r with
  | none => rfl
  | some e => rfl

/-- Requests that are taken change nothing but the ledger, each by what it comes to at the start. -/
theorem after_eq (hc : s.counts) (h : ∀ r ∈ rs, s.Takes r) :
    s.after rs = s.withLedger (s.ledger.enterAll (rs.filterMap s.entryOf?)) := by
  induction rs generalizing s with
  | nil => rfl
  | cons r rs ih =>
    obtain ⟨hr, hrs⟩ := List.forall_mem_cons.mp h
    -- What a request comes to does not depend on the ledger, so the service at the start stands for
    -- the later ones.
    have hstep : s.after (r :: rs) = (s.handle r).2.2.after rs := rfl
    have hrest := ih (s := s.withLedger (s.ledger.enterAll (s.entryOf? r).toList)) hc hrs
    rw [hstep, after_handle hc hr, hrest, entryOf?_withLedger, filterMap_entryOf?_cons,
      Ledger.enterAll_append]
    rfl

/-- What a session shows last is the ledger that it ends with. -/
theorem ledger_of_mem_getLast? {rec : Record} (h : rec ∈ (s.session rs).getLast?) :
    rec.ledger = (s.after rs).ledger := by
  induction rs generalizing s rec with
  | nil => cases h
  | cons r rs ih =>
    rw [session, List.getLast?_cons] at h
    cases hl : ((s.handle r).2.2.session rs).getLast? with
    | none =>
      rw [hl] at h
      cases h
      cases rs with
      | nil => rfl
      | cons r' rs => simp [session] at hl
    | some last =>
      rw [hl] at h
      cases h
      exact ih hl

/-- Answers are counted by what was entered, if each of them can be told from that. -/
theorem countP_session {P : Reply → Bool} {Q : Text × ResultLabel → Bool}
    (hPQ : ∀ (s : Service) (r : Request), s.Takes r → P (s.handle r).1 = (s.entryOf? r).any Q)
    (hc : s.counts) (h : ∀ r ∈ rs, s.Takes r) :
    ((s.session rs).map Record.reply).countP P = (rs.filterMap s.entryOf?).countP Q := by
  induction rs generalizing s with
  | nil => rfl
  | cons r rs ih =>
    obtain ⟨hr, hrs⟩ := List.forall_mem_cons.mp h
    have hrest := ih (s := s.withLedger (s.ledger.enterAll (s.entryOf? r).toList)) hc hrs
    have hfirst : (s.entryOf? r).toList.countP Q = if P (s.handle r).1 then 1 else 0 := by
      rw [hPQ s r hr]
      cases s.entryOf? r with
      | none => rfl
      | some e => exact List.countP_singleton
    have hstep : (s.session (r :: rs)).map Record.reply =
        (s.handle r).1 :: ((s.handle r).2.2.session rs).map Record.reply := rfl
    rw [hstep, after_handle hc hr, List.countP_cons, hrest, entryOf?_withLedger,
      filterMap_entryOf?_cons, List.countP_append, hfirst, Nat.add_comm]

theorem count_after (hc : s.counts) (hl : s.ledger = {}) (h : ∀ r ∈ rs, s.Takes r)
    (transport : Text) (label : ResultLabel) :
    (s.after rs).ledger.count transport (Text.ofString label.name) =
      (rs.filterMap s.entryOf?).count (transport, label) := by
  have hcount := Ledger.sorted_empty.count_enterAll (rs.filterMap s.entryOf?) transport label
  rw [after_eq hc h, hl]
  exact hcount.trans (Nat.zero_add _)

theorem count_filterMap_entryOf? (s : Service) (rs : List Request) (e : Text × ResultLabel) :
    (rs.filterMap s.entryOf?).count e = rs.countP fun r => s.entryOf? r = some e := by
  rw [List.count, List.countP_filterMap]
  apply List.countP_congr
  intro r _
  cases s.entryOf? r with
  | none => simp
  | some e' => simp

theorem count_error_eq_zero (s : Service) (rs : List Request) (transport : Text) :
    (rs.filterMap s.entryOf?).count (transport, .error) = 0 := by
  rw [List.count_eq_zero]
  intro hmem
  obtain ⟨r, -, hr⟩ := List.mem_filterMap.mp hmem
  obtain ⟨j, -, hj⟩ := Option.map_eq_some_iff.mp hr
  exact result_evaluate_ne_error _ _ _ (Prod.mk.inj hj).2

/-- What was entered for a transport, taken apart by its results. -/
theorem countP_entries (transport : Text) (q : ResultLabel → Prop) [DecidablePred q]
    (es : List (Text × ResultLabel)) :
    es.countP (fun e => e.1 = transport ∧ q e.2) =
      ([.ok, .parseError, .evalError, .canceled, .error].map fun label =>
        if q label then es.count (transport, label) else 0).sum := by
  simp only [List.map_cons, List.map_nil, List.sum_cons, List.sum_nil]
  induction es with
  | nil => simp
  | cons e es ih =>
    obtain ⟨t, l⟩ := e
    rw [List.countP_cons, ih]
    simp only [List.count_cons, beq_iff_eq, Prod.mk.injEq, decide_eq_true_eq]
    by_cases ht : t = transport
    · cases l <;> grind
    · simp [ht]

/-- The answers over HTTP, by what was entered. -/
theorem answers_http (hc : s.counts) (h : ∀ r ∈ rs, s.Takes r) :
    let answers := (s.session rs).map Record.reply
    let entered (label : ResultLabel) :=
      (rs.filterMap s.entryOf?).count (Text.ofString Protocol.http.name, label)
    answers.countP (·.hasStatus 200) = entered .ok ∧
      answers.countP (·.hasStatus 400) = entered .parseError + entered .evalError ∧
      answers.countP (·.hasStatus 503) = entered .canceled := by
  intro answers entered
  have hstatus {n : Nat} (hn : n ≠ 413) :=
    (countP_session (fun s r hr => hasStatus_handle hr hn) hc h).trans
      (countP_entries _ (·.status = n) _)
  refine ⟨(hstatus (by decide)).trans ?_, (hstatus (by decide)).trans ?_,
    (hstatus (by decide)).trans ?_⟩
  · simp [ResultLabel.status, entered]
  · simp [ResultLabel.status, entered]
  · simp [ResultLabel.status, entered]

/-- The answers over gRPC, by what was entered. -/
theorem answers_grpc (hc : s.counts) (h : ∀ r ∈ rs, s.Takes r) :
    let answers := (s.session rs).map Record.reply
    let entered (label : ResultLabel) :=
      (rs.filterMap s.entryOf?).count (Text.ofString Protocol.grpc.name, label)
    answers.countP (·.hasCode [.ok]) = entered .ok ∧
      answers.countP (·.hasCode [.invalidArgument]) = entered .parseError + entered .evalError ∧
      answers.countP (·.hasCode [.canceled, .deadlineExceeded]) = entered .canceled := by
  intro answers entered
  have hcode (cs : List RpcCode) (q : ResultLabel → Prop) [DecidablePred q]
      (hq : ∀ l c, l.HasCode c → (c ∈ cs ↔ q l)) :=
    (countP_session (fun s r hr => hasCode_handle hr hq) hc h).trans (countP_entries _ q _)
  refine ⟨(hcode _ (· = .ok) ?_).trans ?_,
    (hcode _ (fun l => l = .parseError ∨ l = .evalError) ?_).trans ?_,
    (hcode _ (· = .canceled) ?_).trans ?_⟩
  · intro l c hlc
    rw [List.mem_singleton, hlc.eq_ok_iff]
  · simp [entered]
  · intro l c hlc
    rw [List.mem_singleton, hlc.eq_invalidArgument_iff]
  · simp [entered]
  · intro l c hlc
    rw [List.mem_pair, hlc.eq_canceled_iff]
  · simp [entered]

end Session

section Accounting

/-- The ledger accounts for every request that is taken, by transport and by result, and agrees with
the answers, whichever way they are given. A request raises one count by one, or none if it is too
large, and the order of the requests does not matter. -/
theorem ledger_accounts_for_requests (s : Service) (hc : s.counts) (hl : s.ledger = {})
    (rs : List Request) (h : ∀ r ∈ rs, s.Takes r) :
    let ledger := (s.after rs).ledger
    let count (transport : Text) (label : ResultLabel) :=
      ledger.count transport (Text.ofString label.name)
    let answers := (s.session rs).map Record.reply
    let http := Text.ofString Protocol.http.name
    let grpc := Text.ofString Protocol.grpc.name
    (∀ last ∈ (s.session rs).getLast?, last.ledger = ledger) ∧
    (∀ transport label,
      count transport label = rs.countP fun r => s.entryOf? r = some (transport, label)) ∧
    (count http .ok = answers.countP (·.hasStatus 200) ∧
      count http .parseError + count http .evalError = answers.countP (·.hasStatus 400) ∧
      count http .canceled = answers.countP (·.hasStatus 503)) ∧
    (count grpc .ok = answers.countP (·.hasCode [.ok]) ∧
      count grpc .parseError + count grpc .evalError =
        answers.countP (·.hasCode [.invalidArgument]) ∧
      count grpc .canceled = answers.countP (·.hasCode [.canceled, .deadlineExceeded])) ∧
    (∀ transport, count transport .error = 0) ∧
    (∀ r, s.Takes r →
      let (reply, _, next) := (s.after rs).handle r
      (∀ label, reply.result? = some label → ∃ transport, s.entryOf? r = some (transport, label)) ∧
      (reply.hasStatus 413 → next.ledger = ledger) ∧
      (next.ledger = ledger ∨ ∃ transport label, ∀ transport' label',
        next.ledger.count transport' label' = ledger.count transport' label' +
          if transport = transport' ∧ label = label' then 1 else 0)) ∧
    ∀ rs' : List Request, rs'.Perm rs → (s.after rs').ledger = ledger := by
  intro ledger count answers http grpc
  have hcount : ∀ transport label, count transport label = _ := count_after hc hl h
  have hafter := after_eq hc h
  refine ⟨fun last hlast => ledger_of_mem_getLast? hlast, ?_, ?_, ?_, ?_, ?_, ?_⟩
  · intro transport label
    rw [hcount, count_filterMap_entryOf?]
  · obtain ⟨hok, hfault, hcanceled⟩ := answers_http hc h
    simp only [hcount]
    exact ⟨hok.symm, hfault.symm, hcanceled.symm⟩
  · obtain ⟨hok, hfault, hcanceled⟩ := answers_grpc hc h
    simp only [hcount]
    exact ⟨hok.symm, hfault.symm, hcanceled.symm⟩
  · intro transport
    rw [hcount, count_error_eq_zero]
  · intro r hr
    have hsorted : (s.after rs).ledger.Sorted := by
      rw [hafter, hl]
      exact Ledger.sorted_empty.enterAll _
    have hr' : (s.after rs).Takes r := by rwa [hafter, takes_withLedger]
    have hc' : (s.after rs).counts := by rwa [hafter]
    refine ⟨?_, count_handle hc' hsorted hr'⟩
    intro label hlabel
    have hentry := entryOf?_of_result? hr' hlabel
    rwa [hafter, entryOf?_withLedger] at hentry
  · intro rs' hperm
    have h' : ∀ r ∈ rs', s.Takes r := fun r hr => h r (hperm.mem_iff.mp hr)
    have hledger : ledger = _ := congrArg Service.ledger hafter
    rw [hledger, after_eq hc h']
    exact Ledger.enterAll_perm (hperm.filterMap _) _

/-- A body past the limit is not counted; a context that is over is, for each transport. -/
theorem ledger_accounts_for_ended_contexts :
    let s := Service.start { Settings.default with maxBodyBytes := 4 } true true true
    let post (body : Text) (ctx : Option ContextEnd) : Request :=
      .http ⟨"POST", "/lispust", ⟨[body], none⟩, ctx⟩
    let rs := [post "(+ 1 2)" none, post "()" (some .canceled), .rpc "()" (some .deadlineExceeded)]
    let canceled := Text.ofString ResultLabel.canceled.name
    (∀ r ∈ rs, s.Takes r) ∧ (s.after rs).ledger.count Protocol.http.name canceled = 1 ∧
      (s.after rs).ledger.count Protocol.grpc.name canceled = 1 ∧
      ((s.session rs).map Record.reply).countP (·.hasStatus 503) = 1 := by
  intro s post rs canceled
  have hpost (body : Text) (ctx : Option ContextEnd) : s.Takes (post body ctx) :=
    ⟨rfl, rfl, rfl⟩
  have h : ∀ r ∈ rs, s.Takes r := by
    intro r hr
    rcases List.mem_cons.mp hr with rfl | hr
    · exact hpost _ _
    · rcases List.mem_cons.mp hr with rfl | hr
      · exact hpost _ _
      · rw [List.mem_singleton.mp hr]
        trivial
  obtain ⟨-, hcount, ⟨-, -, hcanceled⟩, -⟩ := s.ledger_accounts_for_requests rfl rfl rs h
  have hhttp := (hcount Protocol.http.name .canceled).trans (by decide : _ = 1)
  have hgrpc := (hcount Protocol.grpc.name .canceled).trans (by decide : _ = 1)
  exact ⟨h, hhttp, hgrpc, hcanceled.symm.trans hhttp⟩

end Accounting

end Service

end TinyLisp

import TinyLisp.Proofs.Node.RoundTrip
import TinyLisp.Service.Log

/-!
What evaluation comes to, for trees and for texts.

A well-formed tree has a value or a type fault; reading a text yields no other trees. So whatever a
text holds, evaluating it ends with a number, a truth value or a fault that its writer is to blame
for, and the faults of trees built by hand do not turn up.
-/

namespace TinyLisp

/-- A number or a truth value. -/
def Value.IsProper (v : Value) : Prop := v.isNumber ∨ v.isBoolean

/-- The operator is a known one, and every value shown is a number or a truth value. -/
def TypeFault.IsProper : TypeFault → Prop
  | .operands op l r => op.isKnown ∧ l.IsProper ∧ r.IsProper
  | .condition v => v.IsProper

/-- A value or a type fault, with nothing invalid in it. -/
inductive IsSettled : Except EvalFault Value → Prop
  | value {v : Value} (hv : v.IsProper) : IsSettled (.ok v)
  | fault {f : TypeFault} (hf : f.IsProper) : IsSettled (.error (.types f))

section Tree

variable {op : Operator} {l r v : Value} {x : Except EvalFault Value}
  {f : Value → Except EvalFault Value}

theorem Value.isProper_number (a : Int32) : (Value.number a).IsProper := .inl rfl

theorem Value.isProper_boolean (b : Bool) : (Value.boolean b).IsProper := .inr rfl

theorem IsSettled.bind (hx : IsSettled x) (hf : ∀ v, v.IsProper → IsSettled (f v)) :
    IsSettled (x >>= f) := by
  cases hx with
  | value hv => exact hf _ hv
  | fault he => exact .fault he

theorem Operator.isSettled_apply (hop : op.isKnown) (hl : l.IsProper) (hr : r.IsProper) :
    IsSettled (op.apply l r) := by
  have hfault : IsSettled (.error (.types (.operands op l r))) := .fault ⟨hop, hl, hr⟩
  cases l with
  | number a =>
    cases r with
    | number b =>
      cases op with
      | add => exact .value (Value.isProper_number _)
      | subtract => exact .value (Value.isProper_number _)
      | unknown code => cases hop
    | boolean b => exact hfault
    | invalid => exact hfault
  | boolean a => exact hfault
  | invalid => exact hfault

theorem Node.WellFormed.isSettled_eval {n : Node} (h : n.WellFormed) : IsSettled n.eval := by
  match n, h with
  | .number a, _ => exact .value (Value.isProper_number a)
  | .boolean b, _ => exact .value (Value.isProper_boolean b)
  | .binary op l r, ⟨hop, hl, hr⟩ =>
    rw [Node.eval]
    apply hl.isSettled_eval.bind
    intro left hleft
    apply hr.isSettled_eval.bind
    intro right hright
    exact Operator.isSettled_apply hop hleft hright
  | .conditional c y n, ⟨hc, hy, hn⟩ =>
    rw [Node.eval]
    apply hc.isSettled_eval.bind
    intro cond hcond
    cases cond with
    | boolean b =>
      cases b with
      | true => exact hy.isSettled_eval
      | false => exact hn.isSettled_eval
    | number a => exact .fault hcond
    | invalid => exact .fault hcond
  | .sequence items, _ => exact .value (Value.isProper_boolean true)

theorem Node.WellFormed.isProper_of_eval {n : Node} (h : n.WellFormed) (hv : n.eval = .ok v) :
    v.IsProper := by
  have hs := h.isSettled_eval
  rw [hv] at hs
  cases hs with
  | value hp => exact hp

end Tree

section Text

variable {s : Text} {e : EvalFault} {f : Fault} {v : Value}

/-- What it takes for a text to come to the given outcome. -/
def Text.Yields (s : Text) : Except Fault Value → Prop
  | .ok v => ∃ n, s.parse = .ok n ∧ n.eval = .ok v
  | .error (.parse e) => s.parse = .error e
  | .error (.eval e) => ∃ n, s.parse = .ok n ∧ n.eval = .error e

theorem Text.eval_eq_iff (s : Text) (o : Except Fault Value) : s.eval = o ↔ s.Yields o := by
  constructor
  · rintro rfl
    rw [Text.eval]
    cases hs : s.parse with
    | error e => exact hs
    | ok n =>
      dsimp only
      cases hn : n.eval with
      | error e => exact ⟨n, hs, hn⟩
      | ok v => exact ⟨n, hs, hn⟩
  · intro h
    match o, h with
    | .ok v, ⟨n, hs, hn⟩ => simp only [Text.eval, hs, hn]
    | .error (.parse e), hs => simp only [Text.eval, show s.parse = .error e from hs]
    | .error (.eval e), ⟨n, hs, hn⟩ => simp only [Text.eval, hs, hn]

theorem Text.run_eq_error_iff : s.run = .error f ↔ s.eval = .error f := by
  rw [Text.run]
  cases s.eval <;> simp [Except.map]

theorem Text.run_eq_ok_iff {out : Text} : s.run = .ok out ↔ ∃ v, s.eval = .ok v ∧ v.render = out := by
  rw [Text.run]
  cases s.eval <;> simp [Except.map]

theorem Text.parse_ofChars {cs : List Char} {o : Token} {ts : List Token} {n : Node}
    (hcs : tokensOf cs = o :: ts) (ho : o.kind = .openParen) (d : Derivation (o :: ts) n) :
    (Text.ofChars cs).parse = .ok n := by
  rw [Text.parse, Text.tokens_ofChars, hcs]
  exact Node.ofTokens_eq_ok_iff.mpr ⟨⟨o, rfl, ho⟩, ⟨d⟩⟩

theorem Text.isProper_of_eval (h : s.eval = .ok v) : v.IsProper := by
  obtain ⟨n, hn, hv⟩ := (s.eval_eq_iff _).mp h
  exact (Node.wellFormed_of_ofTokens hn).isProper_of_eval hv

theorem Text.exists_types_of_eval (h : s.eval = .error (.eval e)) :
    ∃ f, e = .types f ∧ f.IsProper := by
  obtain ⟨n, hn, he⟩ := (s.eval_eq_iff _).mp h
  have hs := (Node.wellFormed_of_ofTokens hn).isSettled_eval
  rw [he] at hs
  cases hs with
  | fault hf => exact ⟨_, rfl, hf⟩

end Text

section Answer

variable {s : Text} {f : Fault}

theorem Text.result_of_run (h : s.run = .error f) :
    (Failure.fault f).result = match f with
      | .parse _ => .parseError
      | .eval _ => .evalError := by
  cases f with
  | parse e => rfl
  | eval e =>
    obtain ⟨g, rfl, -⟩ := Text.exists_types_of_eval (Text.run_eq_error_iff.mp h)
    rfl

theorem Text.httpStatus_of_run (h : s.run = .error f) : httpStatus (some (.fault f)) = 400 := by
  rw [httpStatus, resultOf, Text.result_of_run h]
  cases f <;> rfl

theorem Text.rpcCode_of_run (h : s.run = .error f) :
    rpcCode (some (.fault f)) = .invalidArgument := by
  rw [rpcCode, resultOf, Text.result_of_run h]
  cases f <;> rfl

theorem outcome_evaluate (transport s : Text) :
    (evaluate transport none s).outcome = s.run.mapError .fault := by
  rw [evaluate]
  cases s.run <;> rfl

theorem failure?_evaluate (transport s : Text) :
    (evaluate transport none s).failure? = match s.run with
      | .ok _ => none
      | .error f => some (.fault f) := by
  rw [Evaluated.failure?, outcome_evaluate]
  cases s.run <;> rfl

theorem result_evaluate (transport s : Text) :
    (evaluate transport none s).result = match s.eval with
      | .ok _ => .ok
      | .error (.parse _) => .parseError
      | .error (.eval _) => .evalError := by
  rw [Evaluated.result, failure?_evaluate]
  cases hs : s.eval with
  | ok v =>
    rw [Text.run_eq_ok_iff.mpr ⟨v, hs, rfl⟩]
    rfl
  | error f =>
    have hrun := Text.run_eq_error_iff.mpr hs
    have hresult := Text.result_of_run hrun
    rw [hrun]
    cases f with
    | parse e => exact hresult
    | eval e => exact hresult

/-- Evaluating a text fails exactly where reading it fails or its tree has a type fault, no value or
fault has anything invalid in it, and the writer of the text is to blame for every failure. -/
theorem Text.run_fails_by_language_faults (s : Text) :
    (∀ e, s.eval = .error (.parse e) ↔ s.parse = .error e) ∧
    (∀ e, s.eval = .error (.eval e) ↔ ∃ n, s.parse = .ok n ∧ n.eval = .error e) ∧
    (∀ v, s.eval = .ok v → v.isNumber ∨ v.isBoolean) ∧
    (∀ e, s.eval = .error (.eval e) → ∃ f : TypeFault, e = .types f ∧ f.IsProper) ∧
    (∀ f, s.run = .error f ↔ s.eval = .error f) ∧
    (∀ out, s.run = .ok out ↔ ∃ v, s.eval = .ok v ∧ v.render = out) ∧
    (∀ transport, (evaluate transport none s).result = match s.eval with
      | .ok _ => .ok
      | .error (.parse _) => .parseError
      | .error (.eval _) => .evalError) ∧
    (∀ transport f, (evaluate transport none s).outcome = .error f →
      httpStatus (some f) = 400 ∧ rpcCode (some f) = .invalidArgument) := by
  refine ⟨?_, ?_, ?_, ?_, ?_, ?_, ?_, ?_⟩
  · intro e
    exact s.eval_eq_iff (.error (.parse e))
  · intro e
    exact s.eval_eq_iff (.error (.eval e))
  · intro v hv
    exact Text.isProper_of_eval hv
  · intro e he
    exact Text.exists_types_of_eval he
  · intro f
    exact Text.run_eq_error_iff
  · intro out
    exact Text.run_eq_ok_iff
  · intro transport
    exact result_evaluate transport s
  · intro transport f hf
    rw [outcome_evaluate] at hf
    cases hs : s.run with
    | ok out =>
      rw [hs] at hf
      cases hf
    | error g =>
      rw [hs] at hf
      cases hf
      exact ⟨Text.httpStatus_of_run hs, Text.rpcCode_of_run hs⟩

/-- A truth value in a sum is the writer's fault, and is shown as it is. -/
theorem Text.run_fails_by_boolean_operand :
    let s := Text.ofString "(+ 1 true)"
    let f : TypeFault := .operands .add (.number 1) (.boolean true)
    s.eval = .error (.eval (.types f)) ∧ f.IsProper ∧
      httpStatus (some (.fault (.eval (.types f)))) = 400 := by
  intro s f
  have hone : Derivation [.word "1".toList] (.number 1) :=
    .number (Token.isAtom_of_word rfl) ⟨"1".toList, rfl, integer?_eq_some_iff.mp rfl⟩
  have htrue : Derivation [.word "true".toList] (.boolean true) :=
    .boolean (Token.isAtom_of_word rfl) rfl
  have hparse : s.parse = .ok (.binary .add (.number 1) (.boolean true)) := by
    have hscan : tokensOf "(+ 1 true)".toList = [.leftParen, .word "+".toList, .word "1".toList,
      .word "true".toList, .rightParen] := by decide
    exact Text.parse_ofChars hscan rfl (.binary rfl rfl rfl rfl (.cons hone (.cons htrue .nil)) rfl)
  obtain ⟨-, heval, -, hproper, hrun, -, -, hanswer⟩ := Text.run_fails_by_language_faults s
  have hs := (heval _).mpr ⟨_, hparse, rfl⟩
  obtain ⟨_, ⟨⟩, hf⟩ := hproper _ hs
  have houtcome : (evaluate [] none s).outcome = .error (.fault (.eval (.types f))) := by
    rw [outcome_evaluate, (hrun _).mpr hs]
    rfl
  exact ⟨hs, hf, (hanswer [] _ houtcome).1⟩

end Answer

end TinyLisp

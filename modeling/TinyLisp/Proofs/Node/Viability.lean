import TinyLisp.Proofs.Node.Grammar

/-!
Where reading stops.

Tokens are viable when some further ones, or none, make them an expression. Reading fails at the
first token that ends viability, with a fault that nothing after that token can change, and it fails
for want of tokens exactly when further ones would help.
-/

namespace TinyLisp

/-- The tokens are those of an expression. -/
def Accepted (ts : List Token) : Prop := ∃ n, Node.ofTokens ts = .ok n

/-- The tokens begin an expression, or are one. -/
def Viable (ts : List Token) : Prop := ∃ us, Accepted (ts ++ us)

/-- The fault is about the given token. -/
def ParseFault.Blames : ParseFault → Token → Prop
  | .unexpectedEnd, _ => False
  | .tooManyCloses, t => t.kind = .closeParen
  | .invalidToken x, t | .unexpectedToken x, t | .missingOpen x, t | .trailingTokens x, t =>
    x = t.text

section Viability

variable {t u : Token} {p q ts : List Token} {n : Node} {e : ParseFault}

theorem ParseFault.StopsForm.blames (h : e.StopsForm t) : e.Blames t := by
  cases e with
  | tooManyCloses => exact h
  | invalidToken => exact h
  | unexpectedToken => exact h
  | unexpectedEnd => exact h
  | missingOpen => cases h
  | trailingTokens => cases h

theorem Derives.accepted (h : Derives (t :: ts) n) (ho : t.kind = .openParen) :
    Accepted (t :: ts) :=
  ⟨n, Node.ofTokens_eq_ok_iff.mpr ⟨⟨t, rfl, ho⟩, h⟩⟩

theorem Accepted.viable (h : Accepted ts) : Viable ts := ⟨[], by rwa [List.append_nil]⟩

theorem Viable.of_append (h : Viable (p ++ q)) : Viable p := by
  obtain ⟨us, hus⟩ := h
  exact ⟨q ++ us, by rwa [← List.append_assoc]⟩

theorem Viable.take {j k : Nat} (h : Viable (ts.take k)) (hjk : j ≤ k) : Viable (ts.take j) := by
  have hcut : ts.take j ++ (ts.drop j).take (k - j) = ts.take k := by
    rw [← List.take_add, Nat.add_sub_cancel' hjk]
  exact Viable.of_append (hcut ▸ h)

theorem accepted_parens : Accepted [.leftParen, .rightParen] :=
  Derives.accepted ⟨.empty rfl rfl⟩ rfl

theorem viable_nil : Viable [] := ⟨_, accepted_parens⟩

theorem not_accepted_nil : ¬Accepted [] := by
  rintro ⟨n, hn⟩
  cases hn

/-- All that reading a list of tokens can come to. -/
inductive Verdict (ts : List Token) : Prop
  | accepted (h : Accepted ts)
  | stopped {p rest : List Token} {u : Token} {e : ParseFault} (hts : ts = p ++ u :: rest)
      (hb : e.Blames u) (hs : ∀ us, Node.ofTokens (p ++ u :: us) = .error e) (hv : Viable p)
      (ht : (∃ x, e = .trailingTokens x) ↔ Accepted p)
  | unfinished {more : List Token} (h : Node.ofTokens ts = .error .unexpectedEnd)
      (hm : Accepted (ts ++ more))

theorem Verdict.stopped_first (hb : e.Blames t) (hs : ∀ us, Node.ofTokens (t :: us) = .error e)
    (ht : ∀ x, e ≠ .trailingTokens x) : Verdict (t :: ts) := by
  refine .stopped (List.nil_append _).symm hb hs viable_nil ?_
  constructor
  · rintro ⟨x, hx⟩
    exact absurd hx (ht x)
  · exact fun h => absurd h not_accepted_nil

theorem Node.ofTokens_of_settles (ho : t.kind = .openParen)
    (hs : Reader.form.Settles (t :: p) (.error e)) (us : List Token) :
    Node.ofTokens (t :: p ++ us) = .error e := by
  rw [List.cons_append, Node.ofTokens_open ho, ← List.cons_append, hs us]

theorem Node.ofTokens_trailing (ho : t.kind = .openParen) (hd : Derives (t :: p) n)
    (us : List Token) : Node.ofTokens (t :: p ++ u :: us) = .error (.trailingTokens u.text) := by
  rw [List.cons_append, Node.ofTokens_open ho, ← List.cons_append, hd.settles]

/-- A token that a form stops at comes after viable ones that are no form yet. -/
theorem viable_of_settles (ho : t.kind = .openParen) (hp : p.head? = some t)
    (hs : Reader.form.Settles (p ++ [u]) (.error e)) : Viable p ∧ ¬Accepted p := by
  obtain ⟨w, rfl⟩ := List.head?_eq_some_iff.mp hp
  constructor
  · obtain ⟨more, x, hd⟩ := (form_run (t :: w)).exists_more Derives.settles hs (by simp)
    exact ⟨more, Derives.accepted hd ho⟩
  · rintro ⟨n, hn⟩
    have hd := (Node.ofTokens_eq_ok_iff.mp hn).2
    have hboth := hs []
    rw [List.append_nil, hd.settles [u]] at hboth
    cases hboth

theorem verdict_open (ho : t.kind = .openParen) (ts : List Token) : Verdict (t :: ts) := by
  cases form_run (t :: ts) with
  | @done taken rest n hts hd =>
    cases taken with
    | nil => exact absurd rfl hd.ne_nil
    | cons a p =>
      rw [List.cons_append] at hts
      obtain ⟨rfl, rfl⟩ := List.cons.inj hts
      cases rest with
      | nil =>
        rw [List.append_nil]
        exact .accepted (hd.accepted ho)
      | cons u rest =>
        have ha := hd.accepted ho
        exact .stopped rfl (e := .trailingTokens u.text) rfl (Node.ofTokens_trailing ho hd)
          ha.viable ⟨fun _ => ha, fun _ => ⟨_, rfl⟩⟩
  | @failed taken rest u e hts hb hs =>
    have hnot : ¬∃ x, e = .trailingTokens x := by
      rintro ⟨x, rfl⟩
      cases hb
    cases taken with
    | nil =>
      obtain ⟨rfl, rfl⟩ := List.cons.inj hts
      exact .stopped_first hb.blames (Node.ofTokens_of_settles ho hs) fun x hx => hnot ⟨x, hx⟩
    | cons a p =>
      rw [List.cons_append] at hts
      obtain ⟨rfl, rfl⟩ := List.cons.inj hts
      obtain ⟨hv, hna⟩ := viable_of_settles ho rfl hs
      have hall (us : List Token) : Node.ofTokens (t :: p ++ u :: us) = .error e := by
        have h : Node.ofTokens (t :: (p ++ [u]) ++ us) = .error e :=
          Node.ofTokens_of_settles ho hs us
        rwa [List.cons_append, List.append_assoc, List.singleton_append] at h
      exact .stopped rfl hb.blames hall hv ⟨fun h => absurd h hnot, fun h => absurd h hna⟩
  | unfinished hr hx =>
    refine .unfinished ?_ (Derives.accepted hx ho)
    rw [Node.ofTokens_open ho, hr]

theorem verdict (ts : List Token) : Verdict ts := by
  cases ts with
  | nil => exact .unfinished rfl accepted_parens
  | cons t ts =>
    match hk : t.kind with
    | .openParen => exact verdict_open hk ts
    | .closeParen =>
      have hb : ParseFault.tooManyCloses.Blames t := hk
      refine .stopped_first hb (fun us => ?_) (by simp)
      rw [Node.ofTokens, hk]
    | .word =>
      have hb : (ParseFault.missingOpen t.text).Blames t := rfl
      refine .stopped_first hb (fun us => ?_) (by simp)
      rw [Node.ofTokens, hk]
    | .invalid _ =>
      have hb : (ParseFault.missingOpen t.text).Blames t := rfl
      refine .stopped_first hb (fun us => ?_) (by simp)
      rw [Node.ofTokens, hk]

theorem Node.ofTokens_eq_unexpectedEnd_iff :
    Node.ofTokens ts = .error .unexpectedEnd ↔
      ¬Accepted ts ∧ ∃ us, us ≠ [] ∧ Accepted (ts ++ us) := by
  constructor
  · intro h
    have hna : ¬Accepted ts := by
      rintro ⟨n, hn⟩
      rw [h] at hn
      cases hn
    refine ⟨hna, ?_⟩
    cases verdict ts with
    | accepted ha => exact absurd ha hna
    | @stopped p rest u e hts hb hs hv ht =>
      subst hts
      rw [hs rest] at h
      cases h
      cases hb
    | @unfinished more _ hm =>
      refine ⟨more, ?_, hm⟩
      rintro rfl
      rw [List.append_nil] at hm
      exact hna hm
  · rintro ⟨hna, us, -, n, hn⟩
    cases verdict ts with
    | accepted ha => exact absurd ha hna
    | @stopped p rest u e hts hb hs hv ht =>
      rw [hts, List.append_assoc, List.cons_append, hs] at hn
      cases hn
    | unfinished h => exact h

theorem not_viable_of_stopped (hs : ∀ us, Node.ofTokens (p ++ u :: us) = .error e) :
    ¬Viable (p ++ [u]) := by
  rintro ⟨us, n, hn⟩
  rw [List.append_assoc, List.singleton_append, hs] at hn
  cases hn

/-- Viability ends once. -/
theorem viable_boundary_iff {j k : Nat} (hk : Viable (ts.take k))
    (hk' : ¬Viable (ts.take (k + 1))) :
    Viable (ts.take j) ∧ ¬Viable (ts.take (j + 1)) ↔ j = k := by
  constructor
  · rintro ⟨hj, hj'⟩
    have hle : ¬j < k := fun hlt => hj' (hk.take hlt)
    have hge : ¬k < j := fun hlt => hk' (hj.take hlt)
    omega
  · rintro rfl
    exact ⟨hk, hk'⟩

/-- Reading ends at the first token that cannot be there, or where further tokens would help. -/
theorem Node.ofTokens_fails_earliest (ts : List Token) :
    (Node.ofTokens ts = .error .unexpectedEnd ↔
      ¬Accepted ts ∧ ∃ us, us ≠ [] ∧ Accepted (ts ++ us)) ∧
    ∀ e, Node.ofTokens ts = .error e → e ≠ .unexpectedEnd →
      ∃ k, (∀ j, Viable (ts.take j) ∧ ¬Viable (ts.take (j + 1)) ↔ j = k) ∧
        (∀ us, us.take (k + 1) = ts.take (k + 1) → Node.ofTokens us = .error e) ∧
        (∃ t, ts[k]? = some t ∧ e.Blames t) ∧
        ((∃ x, e = .trailingTokens x) ↔ Accepted (ts.take k)) := by
  refine ⟨Node.ofTokens_eq_unexpectedEnd_iff, ?_⟩
  intro e he hne
  cases verdict ts with
  | accepted ha =>
    obtain ⟨n, hn⟩ := ha
    rw [he] at hn
    cases hn
  | @stopped p rest u e' hts hb hs hv ht =>
    subst hts
    rw [hs rest] at he
    cases he
    have hk : (p ++ u :: rest).take p.length = p := List.take_left
    have hk' : (p ++ u :: rest).take (p.length + 1) = p ++ [u] := List.take_length_add_append 1
    refine ⟨p.length, ?_, ?_, ⟨u, by simp, hb⟩, by rwa [hk]⟩
    · intro j
      exact viable_boundary_iff (hk.symm ▸ hv) (hk'.symm ▸ not_viable_of_stopped hs)
    · intro us hus
      rw [← List.take_append_drop (p.length + 1) us, hus, hk', List.append_assoc,
        List.singleton_append]
      exact hs _
  | unfinished h =>
    rw [he] at h
    cases h
    exact absurd rfl hne

theorem Node.ofTokens_fails_earliest_operand :
    let ts : List Token := [.leftParen, .word ['+'], .rightParen, .word ['x']]
    Node.ofTokens ts = .error .tooManyCloses ∧
      ∃ k, (∀ j, Viable (ts.take j) ∧ ¬Viable (ts.take (j + 1)) ↔ j = k) ∧
        (∀ us, us.take (k + 1) = ts.take (k + 1) → Node.ofTokens us = .error .tooManyCloses) ∧
        (∃ t, ts[k]? = some t ∧ ParseFault.tooManyCloses.Blames t) ∧
        ((∃ x, ParseFault.tooManyCloses = .trailingTokens x) ↔ Accepted (ts.take k)) := by
  intro ts
  have hplus : (Token.word ['+']).formHead = .operator .add := rfl
  have h : Node.ofTokens ts = .error .tooManyCloses := by
    rw [Node.ofTokens_open rfl, Reader.form_open rfl, Reader.body_operator hplus, Reader.map,
      Reader.operands_succ, Reader.bind, Reader.form_close rfl]
    rfl
  exact ⟨h, (Node.ofTokens_fails_earliest ts).2 .tooManyCloses h (by simp)⟩

end Viability

end TinyLisp

import Mathlib.Data.List.Forall2
import TinyLisp.Proofs.Evaluation

/-!
Two runs of evaluation, on trees that differ in nothing but their numbers.

No step of evaluation asks what number it has before it, so the two runs go the same way and end in
outcomes that differ in nothing but their numbers. Writing other numerals into a text that is read
brings about such a tree, and nothing else.
-/

namespace TinyLisp

/-- The trees are the same but for the numbers in them. -/
inductive Node.SameShape : Node → Node → Prop
  | nil : SameShape .nil .nil
  | number (a b : Int32) : SameShape (.number a) (.number b)
  | boolean (b : Bool) : SameShape (.boolean b) (.boolean b)
  | binary (op : Operator) {l l' r r' : Node} (hl : SameShape l l') (hr : SameShape r r') :
      SameShape (.binary op l r) (.binary op l' r')
  | conditional {c c' y y' n n' : Node} (hc : SameShape c c') (hy : SameShape y y')
      (hn : SameShape n n') : SameShape (.conditional c y n) (.conditional c' y' n')
  | sequence {ns ns' : List Node} (h : List.Forall₂ SameShape ns ns') :
      SameShape (.sequence ns) (.sequence ns')

/-- Two numbers, or the same truth value. -/
inductive Value.Resembles : Value → Value → Prop
  | number (a b : Int32) : Resembles (.number a) (.number b)
  | boolean (b : Bool) : Resembles (.boolean b) (.boolean b)

/-- The same fault but for the numbers that it shows. -/
inductive EvalFault.Resembles : EvalFault → EvalFault → Prop
  | operands (op : Operator) {l l' r r' : Value} (hl : l.Resembles l') (hr : r.Resembles r') :
      Resembles (.types (.operands op l r)) (.types (.operands op l' r'))
  | condition {v v' : Value} (h : v.Resembles v') :
      Resembles (.types (.condition v)) (.types (.condition v'))
  | nilNode : Resembles .nilNode .nilNode
  | unknownOperator (code : UInt8) : Resembles (.unknownOperator code) (.unknownOperator code)

/-- The same outcome but for the numbers that it carries. -/
inductive SameOutcome : Except EvalFault Value → Except EvalFault Value → Prop
  | ok {v v' : Value} (h : v.Resembles v') : SameOutcome (.ok v) (.ok v')
  | error {e e' : EvalFault} (h : e.Resembles e') : SameOutcome (.error e) (.error e')

section Tree

variable {l l' r r' : Value} {x x' : Except EvalFault Value}
  {f f' : Value → Except EvalFault Value}

theorem SameOutcome.bind (hx : SameOutcome x x')
    (hf : ∀ v v', v.Resembles v' → SameOutcome (f v) (f' v')) :
    SameOutcome (x >>= f) (x' >>= f') := by
  cases hx with
  | ok hv => exact hf _ _ hv
  | error he => exact .error he

theorem Operator.sameOutcome_apply (op : Operator) (hl : l.Resembles l') (hr : r.Resembles r') :
    SameOutcome (op.apply l r) (op.apply l' r') := by
  have hfault := SameOutcome.error (EvalFault.Resembles.operands op hl hr)
  cases hl with
  | boolean b => exact hfault
  | number a a' =>
    cases hr with
    | boolean b => exact hfault
    | number b b' =>
      cases op with
      | add => exact .ok (.number _ _)
      | subtract => exact .ok (.number _ _)
      | unknown code => exact .error (.unknownOperator code)

theorem Node.SameShape.sameOutcome {n n' : Node} (h : n.SameShape n') :
    SameOutcome n.eval n'.eval := by
  induction n using Node.eval.induct generalizing n' with
  | case1 =>
    cases h with
    | nil => exact .error .nilNode
  | case2 a =>
    cases h with
    | number _ b => exact .ok (.number a b)
  | case3 b =>
    cases h with
    | boolean => exact .ok (.boolean b)
  | case4 op l r ihl ihr =>
    cases h with
    | binary _ hl hr =>
      rw [Node.eval, Node.eval]
      apply (ihl hl).bind
      intro left left' hleft
      apply (ihr hr).bind
      intro right right' hright
      exact op.sameOutcome_apply hleft hright
  | case5 c y n ihc ihy ihn =>
    cases h with
    | conditional hc hy hn =>
      rw [Node.eval, Node.eval]
      apply (ihc hc).bind
      intro cond cond' hcond
      -- Only a truth value picks a branch, and it is the same one in both runs.
      cases hcond with
      | number a b => exact .error (.condition (.number a b))
      | boolean b =>
        cases b with
        | true => exact ihy hy
        | false => exact ihn hn
  | case6 ns =>
    cases h with
    | sequence _ => exact .ok (.boolean true)

end Tree

/-- The same token, or two words that are numerals of 32-bit numbers. -/
def Token.Renumbers (t u : Token) : Prop :=
  t = u ∨ t.kind = .word ∧ u.kind = .word ∧ (∃ v, t.Spells v) ∧ ∃ w, u.Spells w

section Tokens

variable {t u : Token}

theorem Token.Renumbers.eq_of_not_numeral (h : t.Renumbers u)
    (hn : t.kind = .word → ∀ v, ¬t.Spells v) : t = u := by
  rcases h with he | ⟨hk, -, ⟨v, hv⟩, -⟩
  · exact he
  · exact absurd hv (hn hk v)

theorem Token.Renumbers.eq_of_kind (h : t.Renumbers u) {k : TokenKind} (ht : t.kind = k)
    (hk : k ≠ .word) : t = u :=
  h.eq_of_not_numeral fun hw => absurd (ht.symm.trans hw) hk

theorem Token.Renumbers.eq_of_isKeyword (h : t.Renumbers u) (hk : t.IsKeyword) : t = u :=
  h.eq_of_not_numeral fun _ _ hv => hv.not_isKeyword hk

theorem Token.Spells.text_ne_spellBool {v : Int32} (h : t.Spells v) (b : Bool) :
    t.text ≠ Text.ofChars (spellBool b) := by
  cases b with
  | true => exact h.text_ne (by decide)
  | false => exact h.text_ne (by decide)

theorem forall₂_of_append {α β : Type} {R : α → β → Prop} {p q : List α} {us : List β}
    (h : List.Forall₂ R (p ++ q) us) :
    ∃ p' q', us = p' ++ q' ∧ List.Forall₂ R p p' ∧ List.Forall₂ R q q' := by
  induction p generalizing us with
  | nil => exact ⟨[], us, rfl, .nil, h⟩
  | cons a p ih =>
    cases h with
    | cons ha hs =>
      obtain ⟨p', q', rfl, hp, hq⟩ := ih hs
      exact ⟨_ :: p', q', rfl, .cons ha hp, hq⟩

mutual

/-- Other numerals in the tokens of a form make other numbers in its tree. -/
theorem Derivation.renumber {ts us : List Token} {n : Node} (d : Derivation ts n)
    (h : List.Forall₂ Token.Renumbers ts us) : ∃ n', Derives us n' ∧ n.SameShape n' := by
  match d with
  | @Derivation.boolean t b ht hx =>
    match h with
    | .cons hu .nil =>
      obtain rfl := hu.eq_of_not_numeral fun _ _ hv => hv.text_ne_spellBool b hx
      exact ⟨_, ⟨.boolean ht hx⟩, .boolean b⟩
  | .number ht hx =>
    match h with
    | .cons hu .nil =>
      rcases hu with rfl | ⟨-, hk, -, w, hw⟩
      · exact ⟨_, ⟨.number ht hx⟩, .number _ _⟩
      · exact ⟨_, ⟨.number (Token.isAtom_of_word hk) hw⟩, .number _ w⟩
  | .empty ho hc =>
    match h with
    | .cons hu (.cons hv .nil) =>
      obtain rfl := hu.eq_of_kind ho (by decide)
      obtain rfl := hv.eq_of_kind hc (by decide)
      exact ⟨_, ⟨.empty ho hc⟩, .sequence .nil⟩
  | @Derivation.binary o w c op ts l r ho hk hop hx ds hc =>
    match h with
    | .cons hu (.cons hv hs) =>
      obtain rfl := hu.eq_of_kind ho (by decide)
      obtain rfl := hv.eq_of_isKeyword (Operator.isKeyword_of_symbol hk hop hx)
      obtain ⟨ns, hcl, hns⟩ := ds.renumber hc hs
      match ns, hns with
      | [l', r'], .cons hl (.cons hr .nil) =>
        exact ⟨_, hcl.binary hk hop hx _ ho, .binary op hl hr⟩
  | .conditional ho hk hx ds hc =>
    match h with
    | .cons hu (.cons hv hs) =>
      obtain rfl := hu.eq_of_kind ho (by decide)
      obtain rfl := hv.eq_of_isKeyword ⟨hk, .inr (.inr hx)⟩
      obtain ⟨ns, hcl, hns⟩ := ds.renumber hc hs
      match ns, hns with
      | [x', y', z'], .cons hx' (.cons hy (.cons hz .nil)) =>
        exact ⟨_, hcl.conditional hk hx _ ho, .conditional hx' hy hz⟩
  | .sequence ho ds hk hc =>
    match h with
    | .cons hu hs =>
      obtain rfl := hu.eq_of_kind ho (by decide)
      obtain ⟨ns, hcl, hns⟩ := ds.renumber hc hs
      match ns, hns with
      | n' :: ns', .cons hn hns =>
        exact ⟨_, hcl.sequence_self _ ho, .sequence (.cons hn hns)⟩

theorem Derivations.renumber {c : Token} {ts us : List Token} {ns : List Node}
    (ds : Derivations ts ns) (hc : c.kind = .closeParen)
    (h : List.Forall₂ Token.Renumbers (ts ++ [c]) us) :
    ∃ ns', ClosedForms us ns' ∧ List.Forall₂ Node.SameShape ns ns' := by
  match ds with
  | .nil =>
    match h with
    | .cons hu .nil =>
      obtain rfl := hu.eq_of_kind hc (by decide)
      exact ⟨[], .close hc, .nil⟩
  | .cons d ds =>
    rw [List.append_assoc] at h
    obtain ⟨p, q, rfl, hp, hq⟩ := forall₂_of_append h
    obtain ⟨n', hd, hn⟩ := d.renumber hp
    obtain ⟨ns', hcl, hns⟩ := ds.renumber hc hq
    exact ⟨n' :: ns', .cons hd hcl, .cons hn hns⟩

end

end Tokens

section Text

variable {s : Text} {n : Node}

theorem Text.run_of_parse (h : s.parse = .ok n) :
    s.run = (n.eval.map Value.render).mapError .eval := by
  rw [Text.run, Text.eval, h]
  dsimp only
  cases n.eval with
  | ok v => rfl
  | error e => rfl

theorem Text.exists_sameShape {s' : Text} (h : s.parse = .ok n)
    (ht : List.Forall₂ Token.Renumbers s.tokens s'.tokens) :
    ∃ n', s'.parse = .ok n' ∧ n.SameShape n' := by
  obtain ⟨⟨o, ho, hk⟩, ⟨d⟩⟩ := Node.ofTokens_eq_ok_iff.mp h
  obtain ⟨n', hd, hn⟩ := d.renumber ht
  refine ⟨n', ?_, hn⟩
  obtain ⟨ts, hts⟩ := List.head?_eq_some_iff.mp ho
  rw [hts] at ht
  obtain ⟨o', ts', hu, -, hs'⟩ := List.forall₂_cons_left_iff.mp ht
  obtain rfl := hu.eq_of_kind hk (by decide)
  rw [hs'] at hd
  rw [Text.parse, hs']
  exact Node.ofTokens_eq_ok_iff.mpr ⟨⟨o, rfl, hk⟩, hd⟩

theorem Value.render_number_ne_boolean (a : Int32) (b : Bool) :
    (Value.number a).render ≠ (Value.boolean b).render := by
  intro he
  have hs := spellsInt_decimal a.toInt
  rw [show decimal a.toInt = spellBool b from Text.ofChars_injective he] at hs
  have hnone : integer? (spellBool b) = none := by cases b <;> rfl
  rw [integer?_eq_some_iff.mpr hs] at hnone
  cases hnone

theorem Value.Resembles.render_eq_boolean_iff {v v' : Value} (h : v.Resembles v') (b : Bool) :
    v.render = (Value.boolean b).render ↔ v'.render = (Value.boolean b).render := by
  cases h with
  | boolean c => exact Iff.rfl
  | number a a' =>
    have ha := Value.render_number_ne_boolean a b
    have ha' := Value.render_number_ne_boolean a' b
    exact ⟨fun he => absurd he ha, fun he => absurd he ha'⟩

/-- Trees that differ in numbers only come to outcomes that do. Other numerals in a text that is
read make another such text, and change neither whether it has a value, nor which truth value, nor
which fault. -/
theorem Node.numbers_decide_nothing :
    (∀ n n' : Node, n.SameShape n' → SameOutcome n.eval n'.eval) ∧
    ∀ (s s' : Text) (n : Node), s.parse = .ok n →
      List.Forall₂ Token.Renumbers s.tokens s'.tokens →
      (∃ n', s'.parse = .ok n' ∧ n.SameShape n') ∧
      ((∃ out, s.run = .ok out) ↔ ∃ out, s'.run = .ok out) ∧
      (∀ b, s.run = .ok (Value.boolean b).render ↔ s'.run = .ok (Value.boolean b).render) ∧
      ∀ f, s.run = .error f →
        ∃ e e', f = .eval e ∧ s'.run = .error (.eval e') ∧ e.Resembles e' := by
  refine ⟨fun n n' h => h.sameOutcome, ?_⟩
  intro s s' n hn ht
  obtain ⟨n', hn', hshape⟩ := Text.exists_sameShape hn ht
  refine ⟨⟨n', hn', hshape⟩, ?_⟩
  rw [Text.run_of_parse hn, Text.run_of_parse hn']
  have ho := hshape.sameOutcome
  generalize n.eval = o, n'.eval = o' at ho ⊢
  cases ho with
  | @ok v v' hv =>
    refine ⟨⟨fun _ => ⟨v'.render, rfl⟩, fun _ => ⟨v.render, rfl⟩⟩, ?_, ?_⟩
    · intro b
      have hb := hv.render_eq_boolean_iff b
      exact ⟨fun h => congrArg Except.ok (hb.mp (Except.ok.inj h)),
        fun h => congrArg Except.ok (hb.mpr (Except.ok.inj h))⟩
    · intro f hf
      cases hf
  | @error e e' he =>
    refine ⟨⟨nofun, nofun⟩, ?_, ?_⟩
    · intro b
      exact ⟨nofun, nofun⟩
    · intro f hf
      cases hf
      exact ⟨e, e', rfl, rfl, he⟩

/-- The greatest number gives way to one with a sign and zeros to spare; the fault stays. -/
theorem Node.numbers_decide_nothing_in_sum :
    let s := Text.ofString "(+ 2147483647 true)"
    let s' := Text.ofString "(+ -007 true)"
    let e : EvalFault := .types (.operands .add (.number 2147483647) (.boolean true))
    s.run = .error (.eval e) ∧ List.Forall₂ Token.Renumbers s.tokens s'.tokens ∧
      ∃ e', s'.run = .error (.eval e') ∧ e.Resembles e' := by
  intro s s' e
  have hs : s.tokens = [.leftParen, .word "+".toList, .word "2147483647".toList,
      .word "true".toList, .rightParen] := (Text.tokens_ofChars _).trans (by decide)
  have hs' : s'.tokens = [.leftParen, .word "+".toList, .word "-007".toList, .word "true".toList,
      .rightParen] := (Text.tokens_ofChars _).trans (by decide)
  have hmost : (Token.word "2147483647".toList).Spells 2147483647 :=
    ⟨_, rfl, integer?_eq_some_iff.mp rfl⟩
  have hseven : (Token.word "-007".toList).Spells (-7) := ⟨_, rfl, integer?_eq_some_iff.mp rfl⟩
  have hparse : s.parse = .ok (.binary .add (.number 2147483647) (.boolean true)) := by
    rw [Text.parse, hs]
    have left := Derivation.number (Token.isAtom_of_word rfl) hmost
    have right : Derivation [.word "true".toList] (.boolean true) :=
      .boolean (Token.isAtom_of_word rfl) rfl
    exact Node.ofTokens_eq_ok_iff.mpr
      ⟨⟨_, rfl, rfl⟩, ⟨.binary rfl rfl rfl rfl (.cons left (.cons right .nil)) rfl⟩⟩
  have ht : List.Forall₂ Token.Renumbers s.tokens s'.tokens := by
    rw [hs, hs']
    exact .cons (.inl rfl) (.cons (.inl rfl) (.cons (.inr ⟨rfl, rfl, ⟨_, hmost⟩, ⟨_, hseven⟩⟩)
      (.cons (.inl rfl) (.cons (.inl rfl) .nil))))
  have hrun : s.run = .error (.eval e) := Text.run_of_parse hparse
  obtain ⟨-, -, -, herror⟩ := Node.numbers_decide_nothing.2 s s' _ hparse ht
  obtain ⟨_, e', ⟨⟩, hrun', he⟩ := herror _ hrun
  exact ⟨hrun, ht, e', hrun', he⟩

end Text

end TinyLisp

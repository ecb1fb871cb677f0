import TinyLisp.Proofs.Node.Viability

/-!
Reading keeps no count of the parentheses that are open, but what it comes to shows one.

The tokens of a form close its last parenthesis at their very end and not before. So reading runs
out of tokens only while a parenthesis is open, and complains of trailing tokens only behind the
place where the last one was closed for the first time.
-/

namespace TinyLisp

/-- The number of open parentheses, told by the kinds of the tokens. -/
def opens (ts : List Token) : Nat := ts.countP (·.kind = .openParen)

def closes (ts : List Token) : Nat := ts.countP (·.kind = .closeParen)

/-- As many open as close parentheses, and more of them in every part at the front. -/
structure Enclosed (ts : List Token) : Prop where
  balanced : opens ts = closes ts
  inside : ∀ p, p <+: ts → p ≠ [] → p ≠ ts → closes p < opens p

/-- As many open as close parentheses, and no fewer of them in any part at the front. -/
structure Nested (ts : List Token) : Prop where
  balanced : opens ts = closes ts
  front : ∀ p, p <+: ts → closes p ≤ opens p

/-- The least part at the front, other than none at all, in which no parenthesis is left open. -/
structure FirstReturn (p ts : List Token) : Prop where
  front : p <+: ts
  ne_nil : p ≠ []
  balanced : opens p = closes p
  least : ∀ q, q <+: ts → q ≠ [] → opens q = closes q → p <+: q

section Count

variable {t : Token}

theorem opens_append (p q : List Token) : opens (p ++ q) = opens p + opens q :=
  List.countP_append

theorem closes_append (p q : List Token) : closes (p ++ q) = closes p + closes q :=
  List.countP_append

theorem counts_open (h : t.kind = .openParen) (ts : List Token) :
    opens (t :: ts) = opens ts + 1 ∧ closes (t :: ts) = closes ts := by
  simp [opens, closes, h]

theorem counts_close (h : t.kind = .closeParen) (ts : List Token) :
    opens (t :: ts) = opens ts ∧ closes (t :: ts) = closes ts + 1 := by
  simp [opens, closes, h]

theorem counts_atom (h : t.IsAtom) (ts : List Token) :
    opens (t :: ts) = opens ts ∧ closes (t :: ts) = closes ts := by
  simp [opens, closes, h.1, h.2]

end Count

section Forms

variable {c o t : Token} {p q ts : List Token}

theorem Enclosed.atom (h : t.IsAtom) : Enclosed [t] where
  balanced := by
    obtain ⟨ho, hc⟩ := counts_atom h []
    rw [ho, hc]
    rfl
  inside := by
    intro p hp hne hlt
    rcases List.prefix_cons_iff.mp hp with he | ⟨q, he, hq⟩
    · exact absurd he hne
    · rw [List.prefix_nil.mp hq] at he
      exact absurd he hlt

theorem Nested.nil : Nested [] where
  balanced := rfl
  front := by
    intro p hp
    rw [List.prefix_nil.mp hp]
    exact Nat.le_refl _

theorem Enclosed.closes_le (h : Enclosed ts) (hp : p <+: ts) : closes p ≤ opens p := by
  by_cases hnil : p = []
  · rw [hnil]
    exact Nat.le_refl _
  · by_cases hall : p = ts
    · rw [hall]
      exact h.balanced.ge
    · exact (h.inside p hp hnil hall).le

theorem Enclosed.append (h : Enclosed p) (hs : Nested q) : Nested (p ++ q) where
  balanced := by rw [opens_append, closes_append, h.balanced, hs.balanced]
  front := by
    intro r hr
    obtain ⟨u, hu⟩ := hr
    -- The part ends within `p`, or it holds `p` whole and a part of `q`.
    rcases List.append_eq_append_iff.mp hu with ⟨s, hp, -⟩ | ⟨s, hr, hq⟩
    · exact h.closes_le ⟨s, hp.symm⟩
    · rw [hr, opens_append, closes_append, h.balanced]
      exact Nat.add_le_add_left (hs.front s ⟨u, hq.symm⟩) _

/-- Parentheses around forms stay open up to the last token. -/
theorem Nested.enclosed (h : Nested ts) (ho : o.kind = .openParen) (hc : c.kind = .closeParen) :
    Enclosed (o :: (ts ++ [c])) := by
  constructor
  · obtain ⟨hopens, hcloses⟩ := counts_open ho (ts ++ [c])
    obtain ⟨hopens', hcloses'⟩ := counts_close hc []
    rw [hopens, hcloses, opens_append, closes_append, h.balanced, hopens', hcloses']
    rfl
  · intro p hp hne hlt
    rcases List.prefix_cons_iff.mp hp with rfl | ⟨q, rfl, hq⟩
    · exact absurd rfl hne
    rcases List.prefix_concat_iff.mp hq with rfl | hq
    · exact absurd rfl hlt
    · obtain ⟨hopens, hcloses⟩ := counts_open ho q
      rw [hopens, hcloses]
      exact Nat.lt_succ_of_le (h.front q hq)

mutual

theorem Derivation.enclosed {ts : List Token} {n : Node} (d : Derivation ts n) : Enclosed ts := by
  match d with
  | .boolean ht _ => exact .atom ht
  | .number ht _ => exact .atom ht
  | .empty ho hc => exact Nested.nil.enclosed ho hc
  | .binary ho hw _ _ ds hc =>
    exact ((Enclosed.atom (Token.isAtom_of_word hw)).append ds.nested).enclosed ho hc
  | .conditional ho hw _ ds hc =>
    exact ((Enclosed.atom (Token.isAtom_of_word hw)).append ds.nested).enclosed ho hc
  | .sequence ho ds _ hc => exact ds.nested.enclosed ho hc

theorem Derivations.nested {ts : List Token} {ns : List Node} (ds : Derivations ts ns) :
    Nested ts := by
  match ds with
  | .nil => exact .nil
  | .cons d ds => exact d.enclosed.append ds.nested

end

end Forms

section Outcome

variable {p q ts us : List Token} {x : Text}

theorem Accepted.enclosed (h : Accepted ts) : Enclosed ts := by
  obtain ⟨n, hn⟩ := h
  obtain ⟨-, ⟨d⟩⟩ := Node.ofTokens_eq_ok_iff.mp hn
  exact d.enclosed

/-- Before an expression is complete a parenthesis is open. -/
theorem Accepted.open_before (h : Accepted (ts ++ us)) (hus : us ≠ []) (hp : p <+: ts)
    (hne : p ≠ []) : closes p < opens p := by
  apply h.enclosed.inside p (hp.trans (List.prefix_append ts us)) hne
  intro he
  have hlen := hp.length_le
  rw [he, List.length_append] at hlen
  have hpos := List.length_pos_iff.mpr hus
  omega

theorem Enclosed.firstReturn (h : Enclosed p) (hp : p ≠ []) : FirstReturn p (p ++ us) where
  front := List.prefix_append p us
  ne_nil := hp
  balanced := h.balanced
  least := by
    intro q hq hne hb
    rcases List.prefix_or_prefix_of_prefix hq (List.prefix_append p us) with hqp | hpq
    · by_cases he : q = p
      · exact he ▸ List.prefix_rfl
      · have hopen := h.inside q hqp hne he
        omega
    · exact hpq

theorem Accepted.firstReturn (h : Accepted p) : FirstReturn p (p ++ us) := by
  apply h.enclosed.firstReturn
  intro hp
  rw [hp] at h
  exact not_accepted_nil h

theorem exists_accepted_of_trailing (h : Node.ofTokens ts = .error (.trailingTokens x)) :
    ∃ p u rest, ts = p ++ u :: rest ∧ Accepted p ∧ x = u.text := by
  cases verdict ts with
  | accepted ha =>
    obtain ⟨n, hn⟩ := ha
    rw [h] at hn
    cases hn
  | @stopped p rest u e hts hb hs hv ht =>
    subst hts
    rw [hs rest] at h
    cases h
    exact ⟨p, u, rest, rfl, ht.mp ⟨x, rfl⟩, hb⟩
  | unfinished h' =>
    rw [h] at h'
    cases h'

theorem not_unexpectedEnd_of_balanced (hne : ts ≠ []) (hb : opens ts = closes ts) :
    Node.ofTokens ts ≠ .error .unexpectedEnd := by
  intro h
  obtain ⟨-, us, hus, ha⟩ := Node.ofTokens_eq_unexpectedEnd_iff.mp h
  have hopen := ha.open_before hus List.prefix_rfl hne
  omega

theorem FirstReturn.not_trailing (h : FirstReturn ts ts) :
    Node.ofTokens ts ≠ .error (.trailingTokens x) := by
  intro ht
  obtain ⟨p, u, rest, hts, ha, -⟩ := exists_accepted_of_trailing ht
  have hf : FirstReturn p (p ++ u :: rest) := ha.firstReturn
  rw [← hts] at hf
  have hlen := (h.least p hf.front hf.ne_nil hf.balanced).length_le
  rw [hts, List.length_append, List.length_cons] at hlen
  omega

/-- An expression closes its last parenthesis at its very end. Where reading runs out of tokens a
parenthesis has been open all along; where it finds some to spare, they stand behind an expression
that ends where the last parenthesis was closed first. -/
theorem Node.ofTokens_by_depth (ts : List Token) :
    (∀ n, Node.ofTokens ts = .ok n → opens ts = closes ts ∧
      ∀ p, p <+: ts → p ≠ [] → p ≠ ts → closes p < opens p) ∧
    (Node.ofTokens ts = .error .unexpectedEnd →
      ∀ p, p <+: ts → p ≠ [] → closes p < opens p) ∧
    (∀ x, Node.ofTokens ts = .error (.trailingTokens x) →
      ∃ p u rest, ts = p ++ u :: rest ∧ FirstReturn p ts ∧ Accepted p ∧ x = u.text) ∧
    (FirstReturn ts ts → Node.ofTokens ts ≠ .error .unexpectedEnd ∧
      ∀ x, Node.ofTokens ts ≠ .error (.trailingTokens x)) := by
  refine ⟨?_, ?_, ?_, ?_⟩
  · intro n hn
    have h : Enclosed ts := Accepted.enclosed ⟨n, hn⟩
    exact ⟨h.balanced, h.inside⟩
  · intro h p hp hne
    obtain ⟨-, us, hus, ha⟩ := Node.ofTokens_eq_unexpectedEnd_iff.mp h
    exact ha.open_before hus hp hne
  · intro x hx
    obtain ⟨p, u, rest, rfl, ha, hu⟩ := exists_accepted_of_trailing hx
    exact ⟨p, u, rest, rfl, ha.firstReturn, ha, hu⟩
  · intro h
    exact ⟨not_unexpectedEnd_of_balanced h.ne_nil h.balanced, fun x => h.not_trailing⟩

/-- It is the kinds of the tokens that count: a word that looks like a parenthesis is to spare
behind `)(`, a conditional lacks everything, and `(x)` lacks nothing. -/
theorem Node.ofTokens_by_depth_odd_tokens :
    let ts : List Token := [⟨.openParen, Text.ofString ")"⟩, ⟨.closeParen, Text.ofString "("⟩,
      ⟨.word, Text.ofString "("⟩, .leftParen]
    let us : List Token := [.leftParen, .word "if".toList]
    let vs : List Token := [.leftParen, .word "x".toList, .rightParen]
    Node.ofTokens ts = .error (.trailingTokens (Text.ofString "(")) ∧
      (∃ p u rest, ts = p ++ u :: rest ∧ FirstReturn p ts ∧ Accepted p ∧
        Text.ofString "(" = u.text) ∧
      Node.ofTokens us = .error .unexpectedEnd ∧ closes us < opens us ∧
      FirstReturn vs vs ∧ Node.ofTokens vs ≠ .error .unexpectedEnd := by
  intro ts us vs
  have hempty : Derives [⟨.openParen, Text.ofString ")"⟩, ⟨.closeParen, Text.ofString "("⟩]
    (.sequence []) := ⟨.empty rfl rfl⟩
  have hts : Node.ofTokens ts = .error (.trailingTokens (Text.ofString "(")) :=
    Node.ofTokens_trailing rfl hempty _
  have hus : Node.ofTokens us = .error .unexpectedEnd := by
    have hif : (Token.word "if".toList).formHead = .conditional := rfl
    rw [Node.ofTokens_open rfl, Reader.form_open rfl, Reader.body_conditional hif, Reader.map,
      Reader.operands_nil]
    rfl
  have hvs : FirstReturn vs (vs ++ []) := by
    have hx : Nested [.word "x".toList] := (Enclosed.atom (Token.isAtom_of_word rfl)).append .nil
    exact (hx.enclosed rfl rfl).firstReturn (List.cons_ne_nil _ _)
  obtain ⟨-, -, htrailing, -⟩ := Node.ofTokens_by_depth ts
  obtain ⟨-, hend, -, -⟩ := Node.ofTokens_by_depth us
  obtain ⟨-, -, -, hreturn⟩ := Node.ofTokens_by_depth vs
  exact ⟨hts, htrailing _ hts, hus, hend hus us List.prefix_rfl (List.cons_ne_nil _ _), hvs,
    (hreturn hvs).1⟩

end Outcome

end TinyLisp

import TinyLisp.Proofs.Node.Grammar

/-!
The tokens of a tree: what scanning makes of the tree as it is written, and, for a well-formed
tree, a derivation of that tree again.
-/

namespace TinyLisp

/-- The token that an operator is written as; an unknown one leaves nothing behind. -/
def Operator.tokens : Operator → List Token
  | .unknown _ => []
  | op => [.word op.symbol.toList]

namespace Node

mutual

/-- The tokens of a tree as it is written. -/
def tokens : Node → List Token
  | .nil => [.word ":nil".toList]
  | .number v => [.word (decimal v.toInt)]
  | .boolean b => [.word (spellBool b)]
  | .binary op l r => .leftParen :: op.tokens ++ l.tokens ++ r.tokens ++ [.rightParen]
  | .conditional c y n =>
    .leftParen :: .word "if".toList :: c.tokens ++ y.tokens ++ n.tokens ++ [.rightParen]
  | .sequence items => .leftParen :: tokensAll items ++ [.rightParen]

/-- The tokens of the items of a sequence. -/
def tokensAll : List Node → List Token
  | [] => []
  | n :: ns => n.tokens ++ tokensAll ns

end

end Node

section Scan

theorem isPlain_of_isDigit {c : Char} (h : c.isDigit) : IsPlain c := by
  have hn : 48 ≤ c.toNat ∧ c.toNat ≤ 57 := Char.isDigit_iff_toNat.mp h
  constructor
  · simp only [isBlank, Bool.or_eq_false_iff, Bool.and_eq_false_iff, decide_eq_false_iff_not]
    omega
  · rw [parenKind?, if_neg, if_neg]
    · rintro rfl
      exact absurd hn (by decide)
    · rintro rfl
      exact absurd hn (by decide)

theorem SpellsInt.isPlain {cs : List Char} {v : Int} (h : SpellsInt cs v) : ∀ c ∈ cs, IsPlain c := by
  intro c hc
  rcases h.mem hc with hd | rfl | rfl
  · exact isPlain_of_isDigit hd
  · decide
  · decide

theorem tokensOf_decimal (i : Int) : tokensOf (decimal i) = [.word (decimal i)] :=
  tokensOf_word (spellsInt_decimal i).ne_nil (spellsInt_decimal i).isPlain

theorem tokensOf_spellBool (b : Bool) : tokensOf (spellBool b) = [.word (spellBool b)] := by
  cases b with
  | true => rfl
  | false => rfl

theorem tokensOf_symbol (op : Operator) : tokensOf op.symbol.toList = op.tokens := by
  cases op with
  | add => rfl
  | subtract => rfl
  | unknown => rfl

theorem tokensOf_open (cs : List Char) : tokensOf ('(' :: cs) = .leftParen :: tokensOf cs :=
  tokensOf_paren rfl cs

theorem tokensOf_close (cs : List Char) : tokensOf (cs ++ [')']) = tokensOf cs ++ [.rightParen] :=
  tokensOf_append_paren rfl cs []

theorem tokensOf_space (cs ds : List Char) :
    tokensOf (cs ++ ' ' :: ds) = tokensOf cs ++ tokensOf ds :=
  tokensOf_append_blank (by decide) cs ds

mutual

theorem Node.tokensOf_spell (n : Node) : tokensOf n.spell = n.tokens := by
  match n with
  | .nil => rfl
  | .number v => exact tokensOf_decimal v.toInt
  | .boolean b => exact tokensOf_spellBool b
  | .binary op l r =>
    rw [Node.spell, Node.tokens, tokensOf_close, tokensOf_space, tokensOf_space, tokensOf_open,
      tokensOf_symbol, l.tokensOf_spell, r.tokensOf_spell]
  | .conditional c y n =>
    have hif : tokensOf "if".toList = [.word "if".toList] := rfl
    rw [Node.spell, Node.tokens, tokensOf_close, tokensOf_space, tokensOf_space, tokensOf_space,
      tokensOf_open, hif, c.tokensOf_spell, y.tokensOf_spell, n.tokensOf_spell]
    rfl
  | .sequence items =>
    rw [Node.spell, Node.tokens, tokensOf_close, tokensOf_open, Node.tokensOf_spellItems items]

theorem Node.tokensOf_spellItems (ns : List Node) :
    tokensOf (Node.spellItems ns) = Node.tokensAll ns := by
  match ns with
  | [] => rfl
  | [n] => rw [Node.spellItems, n.tokensOf_spell, Node.tokensAll, Node.tokensAll, List.append_nil]
  | n :: m :: ns =>
    rw [Node.spellItems, tokensOf_space, n.tokensOf_spell, Node.tokensOf_spellItems (m :: ns)]
    rfl

end

theorem Node.tokens_encode (n : Node) : n.encode.tokens = n.tokens := by
  rw [Node.encode, Text.tokens_ofChars, n.tokensOf_spell]

end Scan

section Derivation

theorem SpellsInt.isDigit_of_singleton {c : Char} {v : Int} (h : SpellsInt [c] v) : c.isDigit := by
  cases h with
  | unsigned hd => exact hd.head_isDigit
  | plus hd => exact absurd rfl hd.1
  | minus hd => exact absurd rfl hd.1

theorem Token.Spells.not_isKeyword {t : Token} {v : Int32} (h : t.Spells v) : ¬t.IsKeyword := by
  rintro ⟨_, hx | hx | hx⟩
  · have hs := h.chars
    rw [hx, Text.ofString, Text.chars_ofChars] at hs
    exact absurd hs.isDigit_of_singleton (by decide)
  · have hs := h.chars
    rw [hx, Text.ofString, Text.chars_ofChars] at hs
    exact absurd hs.isDigit_of_singleton (by decide)
  · exact h.text_ne (by decide) hx

/-- A keyword never begins a form, so the first item of a sequence is not mistaken for one. -/
theorem Derivation.head_not_keyword {ts : List Token} {n : Node} (d : Derivation ts n) :
    ∀ t ∈ ts.head?, ¬t.IsKeyword := by
  have hopen {o : Token} (ho : o.kind = .openParen) : ¬o.IsKeyword := by
    rintro ⟨hw, _⟩
    rw [ho] at hw
    cases hw
  rintro t ht
  cases d with
  | @boolean _ b _ hx =>
    cases ht
    rintro ⟨_, hk⟩
    rw [hx] at hk
    cases b <;> exact absurd hk (by decide)
  | number _ hx =>
    cases ht
    exact hx.not_isKeyword
  | empty ho => cases ht; exact hopen ho
  | binary ho => cases ht; exact hopen ho
  | conditional ho => cases ht; exact hopen ho
  | sequence ho => cases ht; exact hopen ho

theorem ClosedForms.sequence_cons {p q : List Token} {n : Node} {ns : List Node}
    (h : Derives p n) (hs : ClosedForms q ns) : DerivesBody (p ++ q) (.sequence (n :: ns)) := by
  have hall := ClosedForms.cons h hs
  obtain ⟨d⟩ := h
  have hk := d.head_not_keyword
  obtain ⟨t, us, rfl, hc⟩ := d.head
  exact hall.sequence rfl hc (hk t rfl)

theorem ClosedForms.sequence_self {p : List Token} {n : Node} {ns : List Node}
    (h : ClosedForms p (n :: ns)) : DerivesBody p (.sequence (n :: ns)) := by
  obtain ⟨vs, c, rfl, hc, ⟨ds⟩⟩ := h
  cases ds with
  | cons d ds =>
    rw [List.append_assoc]
    exact ClosedForms.sequence_cons ⟨d⟩ ⟨_, c, rfl, hc, ⟨ds⟩⟩

theorem Operator.tokens_eq {op : Operator} (h : op.isKnown) :
    op.tokens = [.word op.symbol.toList] := by
  cases op with
  | add => rfl
  | subtract => rfl
  | unknown => cases h

mutual

/-- A well-formed tree is derived from its own tokens. -/
theorem Node.WellFormed.derives {n : Node} (h : n.WellFormed) : Derives n.tokens n := by
  match n, h with
  | .number v, _ => exact ⟨.number (Token.isAtom_of_word rfl) ⟨_, rfl, spellsInt_decimal _⟩⟩
  | .boolean b, _ => exact ⟨.boolean (Token.isAtom_of_word rfl) rfl⟩
  | .binary op l r, ⟨hop, hl, hr⟩ =>
    have hforms : ClosedForms (l.tokens ++ (r.tokens ++ [.rightParen])) [l, r] :=
      .cons hl.derives (.cons hr.derives (.close rfl))
    have hd := hforms.binary (t := .word op.symbol.toList) rfl hop rfl .leftParen rfl
    simpa [Node.tokens, Operator.tokens_eq hop] using hd
  | .conditional c y n, ⟨hc, hy, hn⟩ =>
    have hforms : ClosedForms (c.tokens ++ (y.tokens ++ (n.tokens ++ [.rightParen]))) [c, y, n] :=
      .cons hc.derives (.cons hy.derives (.cons hn.derives (.close rfl)))
    have hd := hforms.conditional (t := .word "if".toList) rfl rfl .leftParen rfl
    simpa [Node.tokens] using hd
  | .sequence [], _ => exact ⟨.empty rfl rfl⟩
  | .sequence (n :: ns), ⟨hn, hns⟩ =>
    have hd := ClosedForms.sequence_cons hn.derives hns.closedForms .leftParen rfl
    simpa [Node.tokens, Node.tokensAll] using hd

theorem Node.AllWellFormed.closedForms {ns : List Node} (h : Node.AllWellFormed ns) :
    ClosedForms (Node.tokensAll ns ++ [.rightParen]) ns := by
  match ns, h with
  | [], _ => exact .close rfl
  | n :: ns, ⟨hn, hns⟩ =>
    rw [Node.tokensAll, List.append_assoc]
    exact .cons hn.derives hns.closedForms

end

end Derivation

end TinyLisp

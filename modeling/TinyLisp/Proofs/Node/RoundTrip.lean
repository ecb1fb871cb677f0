import TinyLisp.Proofs.Node.Spelling
import TinyLisp.Proofs.Token.Numeral

/-!
Writing a tree and reading it back, and reading a text and writing what came of it.

Both go through the grammar: a tree is derived from its own tokens, and tokens that a tree is
derived from are the tree's own up to the spelling of numbers.
-/

namespace TinyLisp

section WriteRead

mutual

theorem Derivation.wellFormed {ts : List Token} {n : Node} (d : Derivation ts n) :
    n.WellFormed := by
  match d with
  | .boolean _ _ => trivial
  | .number _ _ => trivial
  | .empty _ _ => trivial
  | .binary _ _ hop _ ds _ =>
    obtain ⟨hl, hr, _⟩ := ds.allWellFormed
    exact ⟨hop, hl, hr⟩
  | .conditional _ _ _ ds _ =>
    obtain ⟨hc, hy, hn, _⟩ := ds.allWellFormed
    exact ⟨hc, hy, hn⟩
  | .sequence _ ds _ _ => exact ds.allWellFormed

theorem Derivations.allWellFormed {ts : List Token} {ns : List Node} (ds : Derivations ts ns) :
    Node.AllWellFormed ns := by
  match ds with
  | .nil => trivial
  | .cons d ds => exact ⟨d.wellFormed, ds.allWellFormed⟩

end

theorem Derivation.isForm {o : Token} {ts : List Token} {n : Node} (d : Derivation (o :: ts) n)
    (ho : o.kind = .openParen) : n.IsForm := by
  cases d with
  | boolean ht => exact absurd ho ht.1
  | number ht => exact absurd ho ht.1
  | empty => trivial
  | binary => trivial
  | conditional => trivial
  | sequence => trivial

theorem Node.IsForm.head?_tokens {n : Node} (h : n.IsForm) :
    n.tokens.head? = some .leftParen := by
  cases n with
  | nil => cases h
  | number => cases h
  | boolean => cases h
  | binary => rfl
  | conditional => rfl
  | sequence => rfl

theorem Node.wellFormed_of_ofTokens {ts : List Token} {n : Node} (h : Node.ofTokens ts = .ok n) :
    n.WellFormed := by
  obtain ⟨_, ⟨d⟩⟩ := Node.ofTokens_eq_ok_iff.mp h
  exact d.wellFormed

theorem Node.isForm_of_ofTokens {ts : List Token} {n : Node} (h : Node.ofTokens ts = .ok n) :
    n.IsForm := by
  obtain ⟨⟨o, ho, hk⟩, ⟨d⟩⟩ := Node.ofTokens_eq_ok_iff.mp h
  obtain ⟨us, rfl⟩ := List.head?_eq_some_iff.mp ho
  exact d.isForm hk

theorem Node.WellFormed.eq_of_tokens {n n' : Node} (h : n.WellFormed) (h' : n'.WellFormed)
    (he : n.tokens = n'.tokens) : n = n' := by
  obtain ⟨-, -, hn⟩ := Derives.append_inj h.derives h'.derives (congrArg (· ++ []) he)
  exact hn

/-- A well-formed tree in parentheses is read back from what it is written as, and reading any
tokens at all comes to no other trees. -/
theorem Node.parse_encode_roundTrip :
    (∀ n : Node, n.WellFormed → n.IsForm → n.encode.parse = .ok n) ∧
    (∀ (ts : List Token) (n : Node), Node.ofTokens ts = .ok n → n.WellFormed ∧ n.IsForm) := by
  constructor
  · intro n hn hf
    rw [Text.parse, n.tokens_encode]
    exact Node.ofTokens_eq_ok_iff.mpr ⟨⟨_, hf.head?_tokens, rfl⟩, hn.derives⟩
  · intro ts n h
    exact ⟨Node.wellFormed_of_ofTokens h, Node.isForm_of_ofTokens h⟩

/-- A sequence that begins with a negative number is not taken for a subtraction. -/
theorem Node.parse_encode_negative_first :
    let n : Node := .sequence [.number (-5), .conditional (.boolean true) (.sequence []) (.number 0)]
    n.encode = Text.ofString "(-5 (if true () 0))" ∧ n.encode.parse = .ok n := by
  intro n
  refine ⟨by decide, Node.parse_encode_roundTrip.1 n ?_ trivial⟩
  exact ⟨trivial, ⟨trivial, trivial, trivial⟩, trivial⟩

end WriteRead

section ReadWrite

variable {t : Token}

theorem Token.IsScanned.kind_eq_word (h : t.IsScanned) (ha : t.IsAtom) : t.kind = .word := by
  rcases h with rfl | rfl | hw
  · exact absurd rfl ha.1
  · exact absurd rfl ha.2
  · exact hw

theorem Token.IsScanned.canonical_open (h : t.IsScanned) (hk : t.kind = .openParen) :
    t.canonical = .leftParen := by
  rcases h with rfl | rfl | hw
  · exact Token.canonical_eq_self fun _ hn => nomatch hn.1
  · cases hk
  · rw [hk] at hw
    cases hw

theorem Token.IsScanned.canonical_close (h : t.IsScanned) (hk : t.kind = .closeParen) :
    t.canonical = .rightParen := by
  rcases h with rfl | rfl | hw
  · cases hk
  · exact Token.canonical_eq_self fun _ hn => nomatch hn.1
  · rw [hk] at hw
    cases hw

theorem Operator.integer?_symbol (op : Operator) : integer? op.symbol.toList = none := by
  cases op with
  | add => rfl
  | subtract => rfl
  | unknown => rfl

mutual

/-- Tokens that a tree is derived from are its own, but for the spelling of numbers. -/
theorem Derivation.map_canonical {ts : List Token} {n : Node} (d : Derivation ts n)
    (h : ∀ t ∈ ts, t.IsScanned) : ts.map Token.canonical = n.tokens := by
  match d with
  | @Derivation.boolean t b ht hx =>
    have hw := (List.forall_mem_singleton.mp h).kind_eq_word ht
    have hn : integer? (spellBool b) = none := by cases b <;> decide
    rw [List.map_singleton, Token.canonical_of_text hw hx hn, Node.tokens]
  | .number ht hx =>
    have hw := (List.forall_mem_singleton.mp h).kind_eq_word ht
    have hn : Token.IsNumeral _ _ := ⟨hw, hx.chars⟩
    rw [List.map_singleton, hn.canonical_eq, Node.tokens]
  | .empty ho hc =>
    obtain ⟨hso, hsc⟩ := List.forall_mem_cons.mp h
    rw [List.map_cons, List.map_singleton, hso.canonical_open ho,
      (List.forall_mem_singleton.mp hsc).canonical_close hc, Node.tokens, Node.tokensAll]
    rfl
  | .binary ho hw hop hx ds hc =>
    obtain ⟨hso, hbody⟩ := List.forall_mem_cons.mp h
    obtain ⟨-, hforms⟩ := List.forall_mem_cons.mp hbody
    have hsymbol := Token.canonical_of_text hw hx (Operator.integer?_symbol _)
    have hmap := ds.map_canonical_close hc hforms
    rw [List.map_cons, List.map_cons, hmap, hso.canonical_open ho, hsymbol, Node.tokens,
      Operator.tokens_eq hop]
    simp [Node.tokensAll]
  | .conditional ho hw hx ds hc =>
    obtain ⟨hso, hbody⟩ := List.forall_mem_cons.mp h
    obtain ⟨-, hforms⟩ := List.forall_mem_cons.mp hbody
    have hif := Token.canonical_of_text hw hx (by decide)
    have hmap := ds.map_canonical_close hc hforms
    rw [List.map_cons, List.map_cons, hmap, hso.canonical_open ho, hif, Node.tokens]
    simp [Node.tokensAll]
  | .sequence ho ds hk hc =>
    obtain ⟨hso, hforms⟩ := List.forall_mem_cons.mp h
    rw [List.map_cons, ds.map_canonical_close hc hforms, hso.canonical_open ho, Node.tokens]
    rfl

theorem Derivations.map_canonical_close {ts : List Token} {ns : List Node} (ds : Derivations ts ns)
    {c : Token} (hc : c.kind = .closeParen) (h : ∀ t ∈ ts ++ [c], t.IsScanned) :
    (ts ++ [c]).map Token.canonical = Node.tokensAll ns ++ [.rightParen] := by
  match ds with
  | .nil =>
    rw [List.nil_append, List.map_singleton, (h c List.mem_cons_self).canonical_close hc]
    rfl
  | .cons d ds =>
    rw [List.append_assoc] at h ⊢
    obtain ⟨hp, hq⟩ := List.forall_mem_append.mp h
    rw [List.map_append, d.map_canonical hp, ds.map_canonical_close hc hq, Node.tokensAll,
      List.append_assoc]

end

theorem Text.map_canonical_of_parse {s : Text} {n : Node} (h : s.parse = .ok n) :
    s.tokens.map Token.canonical = n.tokens := by
  obtain ⟨_, ⟨d⟩⟩ := Node.ofTokens_eq_ok_iff.mp h
  exact d.map_canonical fun t ht => Text.isScanned_of_mem_tokens ht

/-- Of a text that is read, writing keeps every token but for the spelling of numbers, which comes
to have nothing to spare; and that spelling is all in which texts of the same tree can differ. -/
theorem Text.tokens_encode_of_parse {s : Text} {n : Node} (h : s.parse = .ok n) :
    n.encode.tokens = s.tokens.map Token.canonical ∧
    (∀ t ∈ s.tokens, ∀ v, t.IsNumeral v →
      ∀ cs, t.canonical = .word cs ↔ SpellsInt cs v ∧ HasNoExcess cs) ∧
    (∀ t ∈ s.tokens, (∀ v, ¬t.IsNumeral v) → t.canonical = t) ∧
    (∀ (s' : Text) (n' : Node), s'.parse = .ok n' →
      (n = n' ↔ List.Forall₂ Token.Alike s.tokens s'.tokens)) := by
  have hs := Text.map_canonical_of_parse h
  refine ⟨?_, ?_, ?_, ?_⟩
  · rw [n.tokens_encode, hs]
  · intro t _ v hv cs
    exact hv.canonical_eq_word_iff
  · intro t _ ht
    exact Token.canonical_eq_self ht
  · intro s' n' h'
    have hs' := Text.map_canonical_of_parse h'
    rw [← map_canonical_eq_iff, hs, hs']
    constructor
    · rintro rfl
      rfl
    · intro he
      exact (Node.wellFormed_of_ofTokens h).eq_of_tokens (Node.wellFormed_of_ofTokens h') he

/-- Blanks, plus signs and zeros to spare are lost, and nothing else. -/
theorem Text.tokens_encode_of_parse_spare :
    let s := Text.ofString "( +\t+07 -0)"
    let n : Node := .binary .add (.number 7) (.number 0)
    s.parse = .ok n ∧ n.encode = Text.ofString "(+ 7 0)" ∧
      n.encode.tokens = s.tokens.map Token.canonical := by
  intro s n
  have hs : s.tokens = [.leftParen, .word "+".toList, .word "+07".toList, .word "-0".toList,
      .rightParen] := by
    have hchars : s.chars = "( +\t+07 -0)".toList := Text.chars_ofChars _
    rw [Text.tokens_eq, hchars]
    decide
  have left : Derivation [.word "+07".toList] (.number 7) :=
    .number (Token.isAtom_of_word rfl) ⟨"+07".toList, rfl, integer?_eq_some_iff.mp rfl⟩
  have right : Derivation [.word "-0".toList] (.number 0) :=
    .number (Token.isAtom_of_word rfl) ⟨"-0".toList, rfl, integer?_eq_some_iff.mp rfl⟩
  have hn : s.parse = .ok n := by
    rw [Text.parse, hs]
    exact Node.ofTokens_eq_ok_iff.mpr
      ⟨⟨_, rfl, rfl⟩, ⟨.binary rfl rfl rfl rfl (.cons left (.cons right .nil)) rfl⟩⟩
  exact ⟨hn, by decide, (Text.tokens_encode_of_parse hn).1⟩

end ReadWrite

end TinyLisp

import Mathlib.Data.List.Forall2
import TinyLisp.Proofs.Text.Decimal
import TinyLisp.Proofs.Token.Scan

/-!
Numerals among the tokens: the canonical spelling of a token, and when two tokens differ in no
more than the spelling of a number.
-/

namespace TinyLisp

namespace Token

variable {t u : Token} {v : Int}

/-- A word that is a decimal numeral, worth `v`. -/
def IsNumeral (t : Token) (v : Int) : Prop := t.kind = .word ∧ SpellsInt t.text.chars v

/-- A numeral spelled the way numbers are written, and any other token as it is. -/
def canonical (t : Token) : Token :=
  match t.kind, integer? t.text.chars with
  | .word, some v => .word (decimal v)
  | _, _ => t

/-- The same token, or numerals of the same value. -/
def Alike (t u : Token) : Prop := t = u ∨ ∃ v, t.IsNumeral v ∧ u.IsNumeral v

theorem isNumeral_word_decimal (v : Int) : (Token.word (decimal v)).IsNumeral v := by
  refine ⟨rfl, ?_⟩
  rw [Token.word, Text.chars_ofChars]
  exact spellsInt_decimal v

theorem IsNumeral.canonical_eq (h : t.IsNumeral v) : t.canonical = .word (decimal v) := by
  rw [canonical, h.1, integer?_eq_some_iff.mpr h.2]

theorem canonical_eq_self (h : ∀ v, ¬t.IsNumeral v) : t.canonical = t := by
  rw [canonical]
  split
  · rename_i v hk hv
    exact absurd ⟨hk, integer?_eq_some_iff.mp hv⟩ (h v)
  · rfl

theorem canonical_of_text {cs : List Char} (hk : t.kind = .word) (hx : t.text = Text.ofChars cs)
    (hn : integer? cs = none) : t.canonical = .word cs := by
  rw [canonical, hk, hx, Text.chars_ofChars, hn]
  exact congr (congrArg Token.mk hk) hx

theorem isNumeral_canonical_iff : t.canonical.IsNumeral v ↔ t.IsNumeral v := by
  by_cases h : ∃ w, t.IsNumeral w
  · obtain ⟨w, hw⟩ := h
    have hc := isNumeral_word_decimal w
    rw [← hw.canonical_eq] at hc
    constructor
    · intro hv
      rwa [hv.2.unique hc.2]
    · intro hv
      rwa [hv.2.unique hw.2]
  · rw [canonical_eq_self (not_exists.mp h)]

/-- The canonical spelling of a numeral is the one with nothing to spare. -/
theorem IsNumeral.canonical_eq_word_iff (h : t.IsNumeral v) {cs : List Char} :
    t.canonical = .word cs ↔ SpellsInt cs v ∧ HasNoExcess cs := by
  rw [h.canonical_eq, ← eq_decimal_iff]
  constructor
  · intro he
    exact (Text.ofChars_injective (Token.mk.inj he).2).symm
  · rintro rfl
    rfl

theorem canonical_eq_canonical_iff : t.canonical = u.canonical ↔ t.Alike u := by
  constructor
  · intro he
    by_cases ht : ∃ v, t.IsNumeral v
    · obtain ⟨v, ht⟩ := ht
      have hu := isNumeral_canonical_iff.mpr ht
      rw [he] at hu
      exact .inr ⟨v, ht, isNumeral_canonical_iff.mp hu⟩
    · have hu : ∀ v, ¬u.IsNumeral v := by
        intro v hu
        have hc := isNumeral_canonical_iff.mpr hu
        rw [← he] at hc
        exact ht ⟨v, isNumeral_canonical_iff.mp hc⟩
      rw [canonical_eq_self (not_exists.mp ht), canonical_eq_self hu] at he
      exact .inl he
  · rintro (rfl | ⟨v, ht, hu⟩)
    · rfl
    · rw [ht.canonical_eq, hu.canonical_eq]

end Token

theorem map_canonical_eq_iff {ts us : List Token} :
    ts.map Token.canonical = us.map Token.canonical ↔ List.Forall₂ Token.Alike ts us := by
  rw [← List.forall₂_eq_eq_eq, List.forall₂_map_left_iff, List.forall₂_map_right_iff]
  simp only [Token.canonical_eq_canonical_iff]

end TinyLisp

import TinyLisp.Proofs.Text.Quoted
import TinyLisp.Proofs.Token.OnePass

/-!
Cutting a text before it is scanned.

A byte of seven bits is never part of a longer spelling. Where such a byte is white space or a
parenthesis, the tokens before it and those after it can be scanned apart, whatever bytes there are
on either side. So a text has the tokens of its lines.
-/

namespace TinyLisp

/-- A byte that spells white space on its own. -/
def IsAsciiBlank (w : UInt8) : Prop := w.toNat < 0x80 ∧ isBlank (Char.ofNat w.toNat)

instance (w : UInt8) : Decidable (IsAsciiBlank w) := inferInstanceAs (Decidable (_ ∧ _))

example : ∀ n < 0x80, IsAsciiBlank (UInt8.ofNat n) ↔ n ∈ [9, 10, 11, 12, 13, 32] := by decide

namespace Text

variable {w : UInt8}

theorem tokens_append_asciiBlank (hw : IsAsciiBlank w) (a b : Text) :
    tokens (a ++ w :: b) = a.tokens ++ b.tokens := by
  obtain ⟨hlow, hblank⟩ := hw
  have hspelled := utf8EncodeChar_ofNat w.toNat hlow
  have h := tokens_append_blank hblank a b
  rwa [hspelled, UInt8.ofNat_toNat, List.singleton_append] at h

/-- The parts of a text between white space of one kind can be scanned one by one. -/
theorem flatMap_tokens_split (hw : IsAsciiBlank w) (t : Text) :
    (split w t).flatMap tokens = t.tokens := by
  by_cases h : w ∈ t
  · obtain ⟨a, b, rfl, ha⟩ := List.eq_append_cons_of_mem h
    rw [split_append_cons ha, List.flatMap_cons, flatMap_tokens_split hw b,
      tokens_append_asciiBlank hw]
  · rw [split_of_notMem h, List.flatMap_singleton]
termination_by t.length

/-- A text comes apart at every byte that is white space or a parenthesis, also where the bytes
before it break off within a character or those after it begin within one. -/
theorem tokens_split_at_ascii (a b : Text) :
    (∀ w, IsAsciiBlank w → tokens (a ++ w :: b) = a.tokens ++ b.tokens) ∧
    tokens (a ++ 0x28 :: b) = a.tokens ++ [.leftParen] ++ b.tokens ∧
    tokens (a ++ 0x29 :: b) = a.tokens ++ [.rightParen] ++ b.tokens := by
  refine ⟨fun w hw => tokens_append_asciiBlank hw a b, ?_, ?_⟩
  · rw [List.append_assoc]
    exact tokens_append_paren (c := '(') rfl a b
  · rw [List.append_assoc]
    exact tokens_append_paren (c := ')') rfl a b

/-- The bytes of a line separator, which is white space, are three stray bytes when a tab comes
between them. -/
theorem tokens_split_at_tab_in_character :
    let a : Text := [0xE2, 0x80]
    let b : Text := [0xA8]
    IsAsciiBlank 9 ∧ tokens (a ++ 9 :: b) = [.word ['\uFFFD', '\uFFFD'], .word ['\uFFFD']] ∧
      tokens (a ++ b) = [] := by
  intro a b
  have hnil : chars [] = [] := chars_ofChars []
  have ha : a.tokens = [.word ['\uFFFD', '\uFFFD']] := by
    rw [tokens_eq, chars_cons_of_first? (by decide), chars_cons_of_first? (by decide), hnil]
    rfl
  have hb : b.tokens = [.word ['\uFFFD']] := by
    rw [tokens_eq, chars_cons_of_first? (by decide), hnil]
    rfl
  have hw : IsAsciiBlank 9 := by decide
  refine ⟨hw, ?_, tokens_ofChars ['\u2028']⟩
  rw [(tokens_split_at_ascii a b).1 9 hw, ha, hb]
  rfl

end Text

end TinyLisp

import Mathlib.Data.List.DropRight
import TinyLisp.Proofs.Text.Utf8
import TinyLisp.Text.Blank

/-!
Trimming a text and trimming the characters it shows come to the same.

At its end a text is trimmed by characters that are looked for from the last byte on, while its
characters are counted off from the first byte. The two agree, stray bytes or not, since a spelling
at the end of a text is a piece of it.
-/

namespace TinyLisp

namespace Text

variable {t : Text}

theorem chars_append_utf8EncodeChar (t : Text) (c : Char) :
    chars (t ++ String.utf8EncodeChar c) = chars t ++ [c] := by
  have h := chars_append_ofChars t [c]
  rwa [ofChars_cons, ofChars_nil, List.append_nil] at h

theorem not_isBlank_shown_stray (b : UInt8) : ¬isBlank (Piece.stray b).shown := by
  rw [Piece.shown]
  decide

theorem pieces_of_first? (h : first? t = none) : t = [] ∨ ∃ b ps, t.pieces = .stray b :: ps := by
  cases t with
  | nil => exact .inl rfl
  | cons b t => exact .inr ⟨b, _, pieces_cons_of_first? h⟩

theorem last?_utf8EncodeChar_ne_none (c : Char) (back : Text) :
    last? ((String.utf8EncodeChar c).reverse ++ back) ≠ none := by
  intro h
  have hc := List.findSome?_eq_none_iff.mp h _ (length_utf8EncodeChar_mem c)
  rw [← List.length_reverse, List.take_left, List.reverse_reverse, char?_eq_some_iff.mpr rfl] at hc
  cases hc

/-- A text that ends with no character is empty or ends with a stray byte. -/
theorem pieces_of_last? (h : last? t.reverse = none) :
    t = [] ∨ ∃ ps b, t.pieces = ps ++ [.stray b] := by
  have ht := flatMap_bytes_pieces t
  rcases List.eq_nil_or_concat' t.pieces with hp | ⟨ps, p, hp⟩
  · rw [hp, List.flatMap_nil] at ht
    exact .inl ht.symm
  · cases p with
    | stray b => exact .inr ⟨ps, b, hp⟩
    | char c =>
      rw [hp, List.flatMap_append, List.flatMap_singleton] at ht
      rw [← ht, List.reverse_append] at h
      exact absurd h (last?_utf8EncodeChar_ne_none c _)

theorem chars_trimStart (t : Text) : t.trimStart.chars = t.chars.dropWhile isBlank := by
  fun_induction trimStart t with
  | case1 t c rest h _ hb ih =>
    rw [ih, eq_append_of_first? h, chars_utf8EncodeChar_append, List.dropWhile_cons_of_pos hb]
  | case2 t c rest h _ hb =>
    rw [eq_append_of_first? h, chars_utf8EncodeChar_append, List.dropWhile_cons_of_neg hb]
  | case3 t h =>
    rcases pieces_of_first? h with rfl | ⟨b, ps, hp⟩
    · rw [chars, pieces_nil]
      rfl
    · rw [chars, hp, List.map_cons, List.dropWhile_cons_of_neg (not_isBlank_shown_stray b)]

theorem chars_trimBack (back : Text) :
    chars (trimBack back).reverse = (chars back.reverse).rdropWhile isBlank := by
  fun_induction trimBack back with
  | case1 back c rest h _ hb ih =>
    rw [ih, eq_append_of_last? h, List.reverse_append, List.reverse_reverse,
      chars_append_utf8EncodeChar, List.rdropWhile_concat_pos _ _ _ hb]
  | case2 back c rest h _ hb =>
    rw [eq_append_of_last? h, List.reverse_append, List.reverse_reverse,
      chars_append_utf8EncodeChar, List.rdropWhile_concat_neg _ _ _ hb]
  | case3 back h =>
    rw [← back.reverse_reverse] at h
    rcases pieces_of_last? h with he | ⟨ps, b, hp⟩
    · rw [he, chars, pieces_nil]
      rfl
    · rw [chars, hp, List.map_append, List.map_singleton,
        List.rdropWhile_concat_neg _ _ _ (not_isBlank_shown_stray b)]

theorem chars_trimEnd (t : Text) : t.trimEnd.chars = t.chars.rdropWhile isBlank := by
  rw [trimEnd, chars_trimBack, List.reverse_reverse]

theorem chars_trim (t : Text) :
    t.trim.chars = (t.chars.dropWhile isBlank).rdropWhile isBlank := by
  rw [trim, chars_trimEnd, chars_trimStart]

end Text

end TinyLisp

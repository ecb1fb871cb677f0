import TinyLisp.Node.Printer
import TinyLisp.Proofs.Text.Decimal
import TinyLisp.Text.Printable

/-!
Lines: texts of printable characters, and texts made up of lines.

No printable character is a control character. A byte of seven bits stands in a text for the
character of that number and for nothing else, so the bytes of a line hold no line feed either, and
lines that are each ended by one come out of the text again.
-/

namespace TinyLisp

def AllPrintable (cs : List Char) : Prop := ∀ c ∈ cs, isPrintable c

/-- Lists are the same if they are up to the first `a` and from there on. -/
theorem append_cons_inj {α : Type} {a : α} {xs ys us vs : List α} (hx : a ∉ xs) (hy : a ∉ ys)
    (h : xs ++ a :: us = ys ++ a :: vs) : xs = ys ∧ us = vs := by
  induction xs generalizing ys with
  | nil =>
    cases ys with
    | nil => exact ⟨rfl, (List.cons.inj h).2⟩
    | cons y ys => exact absurd (List.cons.inj h).1 (List.ne_of_not_mem_cons hy)
  | cons x xs ih =>
    cases ys with
    | nil => exact absurd (List.cons.inj h).1.symm (List.ne_of_not_mem_cons hx)
    | cons y ys =>
      obtain ⟨rfl, htail⟩ := List.cons.inj h
      obtain ⟨rfl, he⟩ :=
        ih (List.not_mem_of_not_mem_cons hx) (List.not_mem_of_not_mem_cons hy) htail
      exact ⟨rfl, he⟩

section Characters

variable {c : Char} {cs ds : List Char}

theorem isPrintable_of_toNat (hlow : 0x20 ≤ c.toNat) (hhigh : c.toNat ≤ 0x7E) : isPrintable c := by
  apply List.any_eq_true.mpr
  refine ⟨(0x20, 0x7E), .head _, ?_⟩
  simp only [Bool.and_eq_true, decide_eq_true_eq]
  exact ⟨hlow, hhigh⟩

/-- The table has no control character in it. -/
theorem not_isControl_of_isPrintable (h : isPrintable c) :
    0x20 ≤ c.toNat ∧ ¬(0x7F ≤ c.toNat ∧ c.toNat ≤ 0x9F) := by
  have htable : printableRanges.all fun r => 0x20 ≤ r.1 && (r.2 < 0x7F || 0x9F < r.1) := by
    decide +kernel
  obtain ⟨r, hr, hc⟩ := List.any_eq_true.mp h
  have hr' := List.all_eq_true.mp htable r hr
  simp only [Bool.and_eq_true, Bool.or_eq_true, decide_eq_true_eq] at hc hr'
  omega

theorem AllPrintable.append (hcs : AllPrintable cs) (hds : AllPrintable ds) :
    AllPrintable (cs ++ ds) := List.forall_mem_append.mpr ⟨hcs, hds⟩

theorem AllPrintable.cons (hc : isPrintable c) (hcs : AllPrintable cs) : AllPrintable (c :: cs) :=
  List.forall_mem_cons.mpr ⟨hc, hcs⟩

theorem allPrintable_of_all (h : cs.all isPrintable) : AllPrintable cs := List.all_eq_true.mp h

theorem isPrintable_of_isDigit (h : c.isDigit) : isPrintable c := by
  have hn : 48 ≤ c.toNat ∧ c.toNat ≤ 57 := Char.isDigit_iff_toNat.mp h
  apply isPrintable_of_toNat <;> omega

theorem allPrintable_decimal (i : Int) : AllPrintable (decimal i) := by
  intro c hc
  rcases (spellsInt_decimal i).mem hc with hd | rfl | rfl
  · exact isPrintable_of_isDigit hd
  · rfl
  · rfl

theorem allPrintable_spellBool (b : Bool) : AllPrintable (spellBool b) := by
  apply allPrintable_of_all
  cases b <;> rfl

end Characters

namespace Text

/-- One printable line: UTF-8, and no other characters than printable ones. -/
structure IsLine (t : Text) : Prop where
  isUtf8 : t.isUtf8
  allPrintable : AllPrintable t.chars

section Line

variable {a b : UInt8} {c : Char} {cs : List Char} {t u : Text} {ts us : List Text}

theorem isLine_ofChars (h : AllPrintable cs) : (ofChars cs).IsLine := by
  refine ⟨isUtf8_ofChars cs, ?_⟩
  rwa [chars_ofChars]

theorem isLine_ofString {s : String} (h : s.toList.all isPrintable) : (ofString s).IsLine :=
  isLine_ofChars (allPrintable_of_all h)

theorem ofChars_chars_of_isUtf8 (h : t.isUtf8) : ofChars t.chars = t := by
  induction t using piece_induction with
  | nil => rw [chars, pieces_nil]; rfl
  | char c t ih =>
    rw [isUtf8, pieces_utf8EncodeChar_append, List.all_cons, Piece.isChar, Bool.true_and] at h
    rw [chars_utf8EncodeChar_append, ofChars_cons, ih h]
  | stray a t hs ih =>
    rw [isUtf8, pieces_cons_of_first? hs, List.all_cons, Piece.isChar, Bool.false_and] at h
    cases h

theorem IsLine.append (ht : t.IsLine) (hu : u.IsLine) : (t ++ u).IsLine := by
  rw [← ofChars_chars_of_isUtf8 ht.isUtf8, ← ofChars_chars_of_isUtf8 hu.isUtf8, ← ofChars_append]
  exact isLine_ofChars (ht.allPrintable.append hu.allPrintable)

theorem mem_utf8EncodeChar_iff (hb : b.toNat < 0x80) :
    b ∈ String.utf8EncodeChar c ↔ c.toNat = b.toNat := by
  have hv := char_val_lt c
  have he : c.toNat = c.val.toNat := rfl
  fun_cases String.utf8EncodeChar c <;>
    simp only [List.mem_cons, List.not_mem_nil, or_false, ← UInt8.toNat_inj, UInt8.toNat_ofNat'] <;>
    omega

theorem IsLine.lineFeed_notMem (h : t.IsLine) : 10 ∉ t := by
  intro hm
  rw [← ofChars_chars_of_isUtf8 h.isUtf8, ofChars, List.mem_flatMap] at hm
  obtain ⟨c, hc, hb⟩ := hm
  have hn := (mem_utf8EncodeChar_iff (by decide)).mp hb
  have hp := not_isControl_of_isPrintable (h.allPrintable c hc)
  rw [hn] at hp
  exact absurd hp.1 (by decide)

theorem split_of_notMem (h : b ∉ t) : split b t = [t] := by
  induction t with
  | nil => rfl
  | cons a t ih =>
    have ha := List.ne_of_not_mem_cons h
    rw [split, if_neg ha.symm, ih (List.not_mem_of_not_mem_cons h)]

theorem split_append_cons (h : b ∉ t) (u : Text) : split b (t ++ b :: u) = t :: split b u := by
  induction t with
  | nil => rw [List.nil_append, split, if_pos rfl]
  | cons a t ih =>
    have ha := List.ne_of_not_mem_cons h
    rw [List.cons_append, split, if_neg ha.symm, ih (List.not_mem_of_not_mem_cons h)]

/-- Lines come out of a text as they went in. -/
theorem split_lines (h : ∀ t ∈ ts, b ∉ t) : split b (ts.flatMap (· ++ [b])) = ts ++ [[]] := by
  induction ts with
  | nil => rfl
  | cons t ts ih =>
    obtain ⟨ht, hts⟩ := List.forall_mem_cons.mp h
    rw [List.flatMap_cons, List.append_assoc, List.singleton_append, split_append_cons ht, ih hts,
      List.cons_append]

end Line

end Text

end TinyLisp

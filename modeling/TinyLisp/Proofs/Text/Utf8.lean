import TinyLisp.Text.Basic

/-!
Reading and writing UTF-8.

The first byte of a spelling tells how many bytes it has, so no spelling begins another one. Hence
`Text.chars` takes back what `Text.ofChars` writes, whatever follows, and a text that shows no
replacement character is the spelling of the characters it shows.

A byte that goes on with a spelling is never the first of one, so a text can be read in two parts
that meet at any other byte, whatever stray bytes there are in the first part.
-/

namespace TinyLisp

namespace Text

/-- The number of bytes in a spelling that begins with the given byte. -/
def spellingLength (a : UInt8) : Nat :=
  if a.toNat < 0x80 then 1
  else if a.toNat < 0xE0 then 2
  else if a.toNat < 0xF0 then 3
  else 4

theorem char_val_lt (c : Char) : c.val.toNat < 0x110000 := by
  have hv := c.valid
  simp only [UInt32.isValidChar, Nat.isValidChar] at hv
  omega

theorem spellingLength_utf8EncodeChar (c : Char) :
    (String.utf8EncodeChar c).head?.map spellingLength =
      some (String.utf8EncodeChar c).length := by
  have hv := char_val_lt c
  fun_cases String.utf8EncodeChar c <;>
    simp only [List.head?_cons, Option.map_some, spellingLength, UInt8.toNat_ofNat',
      List.length_cons, List.length_nil, Option.some.injEq] <;>
    (repeat' split) <;> omega

/-- A byte after the first carries six bits. -/
theorem continuation_bits (n : Nat) : (UInt8.ofNat (n % 64 + 128)).toNat % 64 = n % 64 := by
  rw [UInt8.toNat_ofNat']
  omega

theorem codePoint_utf8EncodeChar (c : Char) : codePoint (String.utf8EncodeChar c) = c.toNat := by
  have hv := char_val_lt c
  have he : c.toNat = c.val.toNat := rfl
  fun_cases String.utf8EncodeChar c <;>
    simp only [codePoint, continuation_bits] <;> rw [UInt8.toNat_ofNat'] <;> omega

theorem char?_eq_some_iff {bs : List UInt8} {c : Char} :
    char? bs = some c ↔ String.utf8EncodeChar c = bs := by
  constructor
  · exact utf8EncodeChar_of_char?
  · intro h
    subst h
    simp [char?, codePoint_utf8EncodeChar]

theorem utf8EncodeChar_injective {c d : Char}
    (h : String.utf8EncodeChar c = String.utf8EncodeChar d) : c = d := by
  have hc := char?_eq_some_iff.mpr h
  rw [char?_eq_some_iff.mpr rfl] at hc
  exact (Option.some.inj hc).symm

/-- No spelling begins another one. -/
theorem utf8EncodeChar_append_inj {c d : Char} {t u : Text}
    (h : String.utf8EncodeChar c ++ t = String.utf8EncodeChar d ++ u) : c = d ∧ t = u := by
  have hhead : (String.utf8EncodeChar c).head? = (String.utf8EncodeChar d).head? := by
    obtain ⟨a, as, ha⟩ := List.exists_cons_of_ne_nil (String.utf8EncodeChar_ne_nil (c := c))
    obtain ⟨b, bs, hb⟩ := List.exists_cons_of_ne_nil (String.utf8EncodeChar_ne_nil (c := d))
    rw [ha, hb] at h ⊢
    exact congrArg some (List.cons.inj h).1
  have hlen : (String.utf8EncodeChar c).length = (String.utf8EncodeChar d).length := by
    have hc := spellingLength_utf8EncodeChar c
    rw [hhead, spellingLength_utf8EncodeChar d] at hc
    exact (Option.some.inj hc).symm
  obtain ⟨hcd, htu⟩ := List.append_inj h hlen
  exact ⟨utf8EncodeChar_injective hcd, htu⟩

theorem length_utf8EncodeChar_mem (c : Char) :
    (String.utf8EncodeChar c).length ∈ [1, 2, 3, 4] := by
  have h1 := c.utf8Size_pos
  have h4 := c.utf8Size_le_four
  rw [String.length_utf8EncodeChar]
  simp only [List.mem_cons, List.not_mem_nil, or_false]
  omega

theorem first?_utf8EncodeChar_append (c : Char) (t : Text) :
    first? (String.utf8EncodeChar c ++ t) = some (c, t) := by
  cases h : first? (String.utf8EncodeChar c ++ t) with
  | some p =>
    obtain ⟨d, u⟩ := p
    obtain ⟨rfl, rfl⟩ := utf8EncodeChar_append_inj (eq_append_of_first? h)
    rfl
  | none =>
    have hc := List.findSome?_eq_none_iff.mp h _ (length_utf8EncodeChar_mem c)
    rw [List.take_left, char?_eq_some_iff.mpr rfl] at hc
    cases hc

theorem pieces_nil : pieces [] = [] := by
  rw [pieces]
  split
  · rename_i h
    exact absurd (eq_append_of_first? h).symm (by simp)
  · rfl

theorem pieces_utf8EncodeChar_append (c : Char) (t : Text) :
    pieces (String.utf8EncodeChar c ++ t) = .char c :: pieces t := by
  rw [pieces]
  split
  · rename_i d u h
    obtain ⟨rfl, rfl⟩ := utf8EncodeChar_append_inj (eq_append_of_first? h)
    rfl
  · rename_i h
    rw [first?_utf8EncodeChar_append] at h
    cases h

theorem pieces_cons_of_first? {a : UInt8} {t : Text} (h : first? (a :: t) = none) :
    pieces (a :: t) = .stray a :: pieces t := by
  rw [pieces]
  split
  · rename_i h'
    rw [h] at h'
    cases h'
  · rfl

/-- Every text is empty, or begins with a character, or begins with a stray byte. -/
theorem piece_induction {motive : Text → Prop} (nil : motive [])
    (char : ∀ c t, motive t → motive (String.utf8EncodeChar c ++ t))
    (stray : ∀ a t, first? (a :: t) = none → motive t → motive (a :: t)) (t : Text) : motive t := by
  induction t using pieces.induct with
  | case1 t c rest h _ ih => exact eq_append_of_first? h ▸ char c rest ih
  | case2 h => exact nil
  | case3 a t h ih => exact stray a t h ih

theorem flatMap_bytes_pieces (t : Text) : t.pieces.flatMap Piece.bytes = t := by
  induction t using piece_induction with
  | nil => rw [pieces_nil, List.flatMap_nil]
  | char c t ih => rw [pieces_utf8EncodeChar_append, List.flatMap_cons, ih, Piece.bytes]
  | stray b t h ih =>
    rw [pieces_cons_of_first? h, List.flatMap_cons, ih, Piece.bytes, List.singleton_append]

theorem chars_utf8EncodeChar_append (c : Char) (t : Text) :
    chars (String.utf8EncodeChar c ++ t) = c :: chars t := by
  rw [chars, pieces_utf8EncodeChar_append, List.map_cons]
  rfl

theorem chars_cons_of_first? {a : UInt8} {t : Text} (h : first? (a :: t) = none) :
    chars (a :: t) = Char.ofNat 0xFFFD :: chars t := by
  rw [chars, pieces_cons_of_first? h, List.map_cons]
  rfl

@[simp] theorem pieces_ofChars (cs : List Char) : pieces (ofChars cs) = cs.map .char := by
  induction cs with
  | nil => exact pieces_nil
  | cons c cs ih => rw [ofChars_cons, pieces_utf8EncodeChar_append, ih, List.map_cons]

@[simp] theorem chars_ofChars (cs : List Char) : chars (ofChars cs) = cs := by
  rw [chars, pieces_ofChars, List.map_map]
  exact List.map_id cs

theorem ofChars_injective {cs ds : List Char} (h : ofChars cs = ofChars ds) : cs = ds := by
  have he := congrArg chars h
  rwa [chars_ofChars, chars_ofChars] at he

/-- A stray byte always shows, so a text without replacement characters is UTF-8. -/
theorem ofChars_chars {t : Text} (h : Char.ofNat 0xFFFD ∉ t.chars) : ofChars t.chars = t := by
  induction t using piece_induction with
  | nil => rw [chars, pieces_nil]; rfl
  | char c t ih =>
    rw [chars_utf8EncodeChar_append] at h ⊢
    rw [ofChars_cons, ih (fun hm => h (List.mem_cons_of_mem _ hm))]
  | stray a t hs ih =>
    rw [chars, pieces_cons_of_first? hs, List.map_cons] at h
    exact absurd List.mem_cons_self h

@[simp] theorem isUtf8_ofChars (cs : List Char) : isUtf8 (ofChars cs) := by
  rw [isUtf8, pieces_ofChars, List.all_map, List.all_eq_true]
  intro c hc
  rfl

section Boundary

variable {c : Char} {b : UInt8} {t u : Text}

/-- A byte that can stand in a spelling only after the first. -/
def IsContinuation (b : UInt8) : Prop := b.toNat / 64 = 2

theorem isContinuation_ofNat (n : Nat) : IsContinuation (UInt8.ofNat (n % 64 + 128)) := by
  rw [IsContinuation, UInt8.toNat_ofNat']
  omega

theorem isContinuation_of_mem_tail (h : b ∈ (String.utf8EncodeChar c).tail) :
    IsContinuation b := by
  revert h
  fun_cases String.utf8EncodeChar c with
  | case1 => intro h; cases h
  | case2 =>
    simp only [List.tail_cons, List.mem_singleton]
    rintro rfl
    exact isContinuation_ofNat _
  | case3 =>
    simp only [List.tail_cons, List.mem_cons, List.not_mem_nil, or_false]
    rintro (rfl | rfl)
    · exact isContinuation_ofNat _
    · exact isContinuation_ofNat _
  | case4 =>
    simp only [List.tail_cons, List.mem_cons, List.not_mem_nil, or_false]
    rintro (rfl | rfl | rfl)
    · exact isContinuation_ofNat _
    · exact isContinuation_ofNat _
    · exact isContinuation_ofNat _

/-- The text does not begin within a spelling. -/
def BeginsAnew (t : Text) : Prop := ∀ b ∈ t.head?, ¬IsContinuation b

theorem beginsAnew_utf8EncodeChar_append (c : Char) (t : Text) :
    BeginsAnew (String.utf8EncodeChar c ++ t) := by
  have hv := char_val_lt c
  intro b hb
  revert hb
  fun_cases String.utf8EncodeChar c <;>
    simp only [List.cons_append, List.head?_cons, Option.mem_def, Option.some.injEq] <;>
    rintro rfl <;> rw [IsContinuation, UInt8.toNat_ofNat'] <;> omega

theorem beginsAnew_ofChars (cs : List Char) : BeginsAnew (ofChars cs) := by
  cases cs with
  | nil => intro b hb; cases hb
  | cons c cs => exact beginsAnew_utf8EncodeChar_append c _

/-- A stray byte stays one when more text comes after it that begins anew. -/
theorem first?_append_eq_none (h : first? (b :: t) = none) (hu : BeginsAnew u) :
    first? (b :: t ++ u) = none := by
  cases hf : first? (b :: t ++ u) with
  | none => rfl
  | some p =>
    obtain ⟨c, rest⟩ := p
    -- The character would have to end before `u` or to go on into it.
    rcases List.append_eq_append_iff.mp (eq_append_of_first? hf) with ⟨v, hc, hv⟩ | ⟨v, ht, -⟩
    · cases v with
      | nil =>
        have hsome := first?_utf8EncodeChar_append c []
        rw [hc, List.append_nil, List.append_nil, h] at hsome
        cases hsome
      | cons a v =>
        have ha : a ∈ (String.utf8EncodeChar c).tail := by simp [hc]
        have hhead : a ∈ u.head? := by simp [hv]
        exact absurd (isContinuation_of_mem_tail ha) (hu a hhead)
    · rw [ht, first?_utf8EncodeChar_append] at h
      cases h

theorem pieces_append (t : Text) (hu : BeginsAnew u) :
    pieces (t ++ u) = pieces t ++ pieces u := by
  induction t using piece_induction with
  | nil => rw [pieces_nil, List.nil_append, List.nil_append]
  | char c t ih =>
    rw [List.append_assoc, pieces_utf8EncodeChar_append, pieces_utf8EncodeChar_append, ih,
      List.cons_append]
  | stray b t h ih =>
    have hb := first?_append_eq_none h hu
    rw [List.cons_append] at hb ⊢
    rw [pieces_cons_of_first? hb, pieces_cons_of_first? h, ih, List.cons_append]

theorem chars_append (t : Text) (hu : BeginsAnew u) : chars (t ++ u) = chars t ++ chars u := by
  rw [chars, pieces_append t hu, List.map_append]
  rfl

theorem chars_append_ofChars (t : Text) (cs : List Char) :
    chars (t ++ ofChars cs) = chars t ++ cs := by
  rw [chars_append t (beginsAnew_ofChars cs), chars_ofChars]

theorem chars_append_char_append (t : Text) (c : Char) (u : Text) :
    chars (t ++ (String.utf8EncodeChar c ++ u)) = chars t ++ c :: chars u := by
  rw [chars_append t (beginsAnew_utf8EncodeChar_append c u), chars_utf8EncodeChar_append]

end Boundary

end Text

end TinyLisp

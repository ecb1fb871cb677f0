import Mathlib.Algebra.Group.Nat.Defs
import TinyLisp.Proofs.Text.Lines
import TinyLisp.Text.Numeral
import TinyLisp.Text.Quoted

/-!
Reading quoted text.

A quoted text is a printable line. `Text.readPiece` takes back what `Text.quotePiece` writes,
whatever follows, and takes nothing from the closing quote; so the front of a list of characters
tells which text is quoted there and where it ends.

The two digits after `x` are those of a character or of a stray byte. They tell which: a byte of
seven bits is a character in its own right, so it is never stray.
-/

namespace TinyLisp.Text

section Hexadecimal

theorem digit?_hexDigit : ∀ n < 16, Numeral.digit? (hexDigit n) = some n := by decide

theorem isPrintable_hexDigit : ∀ n < 16, isPrintable (hexDigit n) := by decide

theorem length_hex (width n : Nat) : (hex width n).length = width := by
  induction width generalizing n with
  | zero => rfl
  | succ width ih => rw [hex, List.length_append, ih, List.length_singleton]

theorem allPrintable_hex (width n : Nat) : AllPrintable (hex width n) := by
  induction width generalizing n with
  | zero => intro c hc; cases hc
  | succ width ih =>
    have hdigit := isPrintable_hexDigit (n % 16) (Nat.mod_lt n (by decide))
    exact (ih (n / 16)).append (.cons hdigit (allPrintable_of_all rfl))

/-- The number that hexadecimal digits spell. -/
def hexValue (cs : List Char) : Nat :=
  cs.foldl (fun n c => 16 * n + (Numeral.digit? c).getD 0) 0

theorem hexValue_hex {width n : Nat} (h : n < 16 ^ width) : hexValue (hex width n) = n := by
  induction width generalizing n with
  | zero =>
    rw [pow_zero, Nat.lt_one_iff] at h
    rw [h]
    rfl
  | succ width ih =>
    have hfront : hexValue (hex width (n / 16)) = n / 16 := by
      apply ih
      rw [pow_succ] at h
      exact Nat.div_lt_of_lt_mul (Nat.mul_comm _ 16 ▸ h)
    rw [hexValue] at hfront
    rw [hexValue, hex, List.foldl_append, hfront, List.foldl_cons, List.foldl_nil,
      digit?_hexDigit _ (Nat.mod_lt n (by decide)), Option.getD_some, Nat.div_add_mod]

variable {width n : Nat} {cs : List Char}

theorem hexValue_take_hex (h : n < 16 ^ width) :
    hexValue ((hex width n ++ cs).take width) = n := by
  rw [List.take_left' (length_hex width n), hexValue_hex h]

theorem drop_hex : (hex width n ++ cs).drop width = cs := List.drop_left' (length_hex width n)

end Hexadecimal

section Pieces

/-- The piece that is written after a backslash, and what comes after it. -/
def readEscape : List Char → Option (Piece × List Char)
  | [] => none
  | 'a' :: cs => some (.char (Char.ofNat 7), cs)
  | 'b' :: cs => some (.char (Char.ofNat 8), cs)
  | 't' :: cs => some (.char (Char.ofNat 9), cs)
  | 'n' :: cs => some (.char (Char.ofNat 10), cs)
  | 'v' :: cs => some (.char (Char.ofNat 11), cs)
  | 'f' :: cs => some (.char (Char.ofNat 12), cs)
  | 'r' :: cs => some (.char (Char.ofNat 13), cs)
  | 'x' :: cs =>
    let n := hexValue (cs.take 2)
    some (if n < 0x80 then .char (Char.ofNat n) else .stray (UInt8.ofNat n), cs.drop 2)
  | 'u' :: cs => some (.char (Char.ofNat (hexValue (cs.take 4))), cs.drop 4)
  | 'U' :: cs => some (.char (Char.ofNat (hexValue (cs.take 8))), cs.drop 8)
  | c :: cs => some (.char c, cs)

/-- The first piece of what is written between quotes. There is none before the closing one. -/
def readPiece : List Char → Option (Piece × List Char)
  | [] => none
  | c :: cs =>
    if c = '\\' then readEscape cs
    else if c = '"' then none
    else some (.char c, cs)

variable {a : UInt8} {c : Char} {cs ds : List Char} {p q : Piece} {t u : Text}

theorem readPiece_escape (c : Char) (cs : List Char) :
    readPiece (escape c ++ cs) = some (.char c, cs) := by
  have hc : Char.ofNat c.toNat = c := Char.ofNat_toNat c
  have hlt : c.toNat < 0x110000 := char_val_lt c
  unfold escape
  split
  case h_8 =>
    split
    · rename_i h7
      show readEscape ('x' :: (hex 2 c.toNat ++ cs)) = _
      have hn : hexValue ((hex 2 c.toNat ++ cs).take 2) = c.toNat := hexValue_take_hex (by omega)
      simp only [readEscape, hn, if_pos h7, hc, drop_hex]
    · split
      · show readEscape ('u' :: (hex 4 c.toNat ++ cs)) = _
        rw [readEscape, hexValue_take_hex (by omega), hc, drop_hex]
      · show readEscape ('U' :: (hex 8 c.toNat ++ cs)) = _
        rw [readEscape, hexValue_take_hex (by omega), hc, drop_hex]
  all_goals
    rename_i hn
    rw [← hc, hn]
    rfl

theorem utf8EncodeChar_ofNat :
    ∀ n < 0x80, String.utf8EncodeChar (Char.ofNat n) = [UInt8.ofNat n] := by decide

theorem lt_of_stray_mem_pieces (h : .stray a ∈ t.pieces) : 0x80 ≤ a.toNat := by
  induction t using piece_induction with
  | nil =>
    rw [pieces_nil] at h
    cases h
  | char c t ih =>
    rw [pieces_utf8EncodeChar_append] at h
    cases h with
    | tail _ h => exact ih h
  | stray b t hb ih =>
    rw [pieces_cons_of_first? hb] at h
    cases h with
    | tail _ h => exact ih h
    | head =>
      apply Nat.le_of_not_lt
      intro hlt
      have he := utf8EncodeChar_ofNat a.toNat hlt
      rw [UInt8.ofNat_toNat] at he
      have hf := first?_utf8EncodeChar_append (Char.ofNat a.toNat) t
      rw [he, List.singleton_append, hb] at hf
      cases hf

/-- What is written for a piece of a text is read back as that piece, and nothing more is read. -/
theorem readPiece_quotePiece (hp : p ∈ t.pieces) (cs : List Char) :
    readPiece (quotePiece p ++ cs) = some (p, cs) := by
  cases p with
  | char c =>
    rw [quotePiece]
    split
    case isTrue h =>
      rcases h with rfl | rfl
      · rfl
      · rfl
    case isFalse h =>
      obtain ⟨hquote, hbackslash⟩ := not_or.mp h
      split
      · rw [List.singleton_append, readPiece, if_neg hbackslash, if_neg hquote]
      · exact readPiece_escape c cs
  | stray b =>
    have hb : ¬b.toNat < 0x80 := Nat.not_lt.mpr (lt_of_stray_mem_pieces hp)
    show readEscape ('x' :: (hex 2 b.toNat ++ cs)) = _
    have hn : hexValue ((hex 2 b.toNat ++ cs).take 2) = b.toNat := hexValue_take_hex b.toNat_lt
    simp only [readEscape, hn, if_neg hb, UInt8.ofNat_toNat, drop_hex]

theorem quotePiece_append_ne_quote (hp : p ∈ t.pieces) (cs ds : List Char) :
    quotePiece p ++ cs ≠ '"' :: ds := by
  intro h
  have hread := readPiece_quotePiece hp cs
  rw [h] at hread
  cases hread

/-- The closing quote ends the pieces of a text, and the pieces before it are told apart. -/
theorem flatMap_quotePiece_append_inj {ps qs : List Piece} (hps : ∀ p ∈ ps, p ∈ t.pieces)
    (hqs : ∀ q ∈ qs, q ∈ u.pieces)
    (h : ps.flatMap quotePiece ++ '"' :: cs = qs.flatMap quotePiece ++ '"' :: ds) :
    ps = qs ∧ cs = ds := by
  induction ps generalizing qs with
  | nil =>
    cases qs with
    | nil => exact ⟨rfl, (List.cons.inj h).2⟩
    | cons q qs =>
      rw [List.flatMap_cons, List.append_assoc] at h
      exact absurd h.symm (quotePiece_append_ne_quote (hqs q List.mem_cons_self) _ _)
  | cons p ps ih =>
    obtain ⟨hp, hps'⟩ := List.forall_mem_cons.mp hps
    cases qs with
    | nil =>
      rw [List.flatMap_cons, List.append_assoc] at h
      exact absurd h (quotePiece_append_ne_quote hp _ _)
    | cons q qs =>
      obtain ⟨hq, hqs'⟩ := List.forall_mem_cons.mp hqs
      rw [List.flatMap_cons, List.append_assoc, List.flatMap_cons, List.append_assoc] at h
      have hread := readPiece_quotePiece hp (ps.flatMap quotePiece ++ '"' :: cs)
      rw [h, readPiece_quotePiece hq] at hread
      obtain ⟨rfl, hrest⟩ := Prod.mk.inj (Option.some.inj hread)
      obtain ⟨rfl, rfl⟩ := ih hps' hqs' hrest.symm
      exact ⟨rfl, rfl⟩

end Pieces

section Quotes

variable {c : Char} {cs ds : List Char} {t u : Text}

theorem quoteChars_append (t : Text) (cs : List Char) :
    quoteChars t ++ cs = '"' :: (t.pieces.flatMap quotePiece ++ '"' :: cs) := by
  rw [quoteChars, List.append_assoc, List.cons_append, List.singleton_append]

theorem quoteChars_append_inj (h : quoteChars t ++ cs = quoteChars u ++ ds) : t = u ∧ cs = ds := by
  rw [quoteChars_append, quoteChars_append] at h
  obtain ⟨hpieces, hrest⟩ :=
    flatMap_quotePiece_append_inj (fun _ hp => hp) (fun _ hq => hq) (List.cons.inj h).2
  refine ⟨?_, hrest⟩
  rw [← flatMap_bytes_pieces t, hpieces, flatMap_bytes_pieces]

theorem quoteChars_injective (h : quoteChars t = quoteChars u) : t = u := by
  have happend : quoteChars t ++ [] = quoteChars u ++ [] := by rw [h]
  exact (quoteChars_append_inj happend).1

theorem quote_injective (h : quote t = quote u) : t = u :=
  quoteChars_injective (ofChars_injective h)

theorem allPrintable_escape (c : Char) : AllPrintable (escape c) := by
  have hbackslash : isPrintable '\\' := rfl
  unfold escape
  split
  case h_8 =>
    split
    · exact .cons hbackslash (.cons rfl (allPrintable_hex 2 _))
    · split
      · exact .cons hbackslash (.cons rfl (allPrintable_hex 4 _))
      · exact .cons hbackslash (.cons rfl (allPrintable_hex 8 _))
  all_goals exact allPrintable_of_all rfl

theorem allPrintable_quotePiece (p : Piece) : AllPrintable (quotePiece p) := by
  cases p with
  | char c =>
    rw [quotePiece]
    split
    case isTrue h =>
      rcases h with rfl | rfl
      · exact allPrintable_of_all rfl
      · exact allPrintable_of_all rfl
    case isFalse =>
      split
      case isTrue hc => exact .cons hc (allPrintable_of_all rfl)
      case isFalse => exact allPrintable_escape c
  | stray b => exact .cons rfl (.cons rfl (allPrintable_hex 2 _))

theorem allPrintable_quoteChars (t : Text) : AllPrintable (quoteChars t) := by
  have hpieces : AllPrintable (t.pieces.flatMap quotePiece) :=
    List.forall_mem_flatMap.mpr fun p _ => allPrintable_quotePiece p
  rw [← List.append_nil (quoteChars t), quoteChars_append]
  exact .cons rfl (hpieces.append (allPrintable_of_all rfl))

/-- Whatever bytes a text holds, it is quoted on one printable line. -/
theorem isLine_quote (t : Text) : t.quote.IsLine := isLine_ofChars (allPrintable_quoteChars t)

end Quotes

end TinyLisp.Text

import TinyLisp.Text.Basic

/-!
White space: the characters that separate words and that are trimmed from the ends of a text.

Trimming looks at whole characters, from the front at the one the text begins with, from the back
at the one it ends with. A stray byte is no white space, so trimming stops there.
-/

namespace TinyLisp

/-- White space in the sense of the Unicode property of that name. -/
def isBlank (c : Char) : Bool :=
  let v := c.toNat
  0x09 ≤ v && v ≤ 0x0D || v = 0x20 || v = 0x85 || v = 0xA0 || v = 0x1680
    || 0x2000 ≤ v && v ≤ 0x200A || v = 0x2028 || v = 0x2029 || v = 0x202F || v = 0x205F
    || v = 0x3000

namespace Text

/-- The character whose spelling a text ends with, and what comes before it. The text is given, and
what comes before is returned, from the last byte to the first. -/
def last? (back : Text) : Option (Char × Text) :=
  [1, 2, 3, 4].findSome? fun n => (char? (back.take n).reverse).map fun c => (c, back.drop n)

theorem eq_append_of_last? {back rest : Text} {c : Char} (h : last? back = some (c, rest)) :
    back = (String.utf8EncodeChar c).reverse ++ rest := by
  obtain ⟨n, _, hn⟩ := List.exists_of_findSome?_eq_some h
  obtain ⟨d, hd, he⟩ := Option.map_eq_some_iff.mp hn
  obtain ⟨rfl, rfl⟩ := Prod.mk.inj he
  rw [utf8EncodeChar_of_char? hd, List.reverse_reverse, List.take_append_drop]

theorem length_lt_of_last? {back rest : Text} {c : Char} (h : last? back = some (c, rest)) :
    rest.length < back.length := by
  have hc := List.length_pos_iff.mpr (String.utf8EncodeChar_ne_nil (c := c))
  rw [eq_append_of_last? h, List.length_append, List.length_reverse]
  omega

/-- The text without the white space in front. -/
def trimStart (t : Text) : Text :=
  match h : first? t with
  | some (c, rest) =>
    have := length_lt_of_first? h
    if isBlank c then trimStart rest else t
  | none => t
termination_by t.length

/-- The text without the white space at its end; both from the last byte to the first. -/
def trimBack (back : Text) : Text :=
  match h : last? back with
  | some (c, rest) =>
    have := length_lt_of_last? h
    if isBlank c then trimBack rest else back
  | none => back
termination_by back.length

/-- The text without the white space at its end. -/
def trimEnd (t : Text) : Text := (trimBack t.reverse).reverse

/-- The text without the white space at both of its ends. -/
def trim (t : Text) : Text := t.trimStart.trimEnd

end Text

end TinyLisp

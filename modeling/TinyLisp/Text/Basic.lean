/-!
Text as the program meets it: a sequence of bytes that is usually, but not always, UTF-8.

`Text.pieces` splits a text into the characters it spells and the stray bytes that belong to no
character; `Text.chars` reads a stray byte as the replacement character.
-/

namespace TinyLisp

/-- Bytes as they enter and leave the program. -/
abbrev Text := List UInt8

/-- One unit of a text: a character in its UTF-8 spelling, or a byte that is part of none. -/
inductive Piece where
  | char (c : Char)
  | stray (b : UInt8)
  deriving DecidableEq, Repr

/-- The bytes that a piece stands for. -/
def Piece.bytes : Piece → List UInt8
  | .char c => String.utf8EncodeChar c
  | .stray b => [b]

/-- The character shown for a piece; a stray byte shows as U+FFFD. -/
def Piece.shown : Piece → Char
  | .char c => c
  | .stray _ => Char.ofNat 0xFFFD

def Piece.isChar : Piece → Bool
  | .char _ => true
  | .stray _ => false

namespace Text

/-- The UTF-8 spelling of a list of characters. -/
def ofChars (cs : List Char) : Text := cs.flatMap String.utf8EncodeChar

def ofString (s : String) : Text := ofChars s.toList

instance : Coe String Text := ⟨ofString⟩

@[simp] theorem ofChars_nil : ofChars [] = [] := rfl

@[simp] theorem ofChars_cons (c : Char) (cs : List Char) :
    ofChars (c :: cs) = String.utf8EncodeChar c ++ ofChars cs := rfl

@[simp] theorem ofChars_append (cs ds : List Char) :
    ofChars (cs ++ ds) = ofChars cs ++ ofChars ds := List.flatMap_append

/-- The code point whose bits the given bytes carry, if they are laid out as UTF-8. -/
def codePoint : List UInt8 → Nat
  | [a] => a.toNat
  | [a, b] => a.toNat % 32 * 64 + b.toNat % 64
  | [a, b, c] => a.toNat % 16 * 4096 + b.toNat % 64 * 64 + c.toNat % 64
  | [a, b, c, d] =>
    a.toNat % 8 * 262144 + b.toNat % 64 * 4096 + c.toNat % 64 * 64 + d.toNat % 64
  | _ => 0

/-- The character whose UTF-8 spelling is exactly `bs`. Overlong spellings, surrogates and values
past the last code point are nobody's spelling, so they are refused by the comparison. -/
def char? (bs : List UInt8) : Option Char :=
  (some (Char.ofNat (codePoint bs))).filter fun c => String.utf8EncodeChar c = bs

theorem utf8EncodeChar_of_char? {bs : List UInt8} {c : Char} (h : char? bs = some c) :
    String.utf8EncodeChar c = bs := by
  simpa using (Option.filter_eq_some_iff.mp h).2

/-- The character whose spelling the text begins with, and what comes after it. -/
def first? (t : Text) : Option (Char × Text) :=
  [1, 2, 3, 4].findSome? fun n => (char? (t.take n)).map fun c => (c, t.drop n)

theorem eq_append_of_first? {t rest : Text} {c : Char} (h : first? t = some (c, rest)) :
    t = String.utf8EncodeChar c ++ rest := by
  obtain ⟨n, _, hn⟩ := List.exists_of_findSome?_eq_some h
  obtain ⟨d, hd, he⟩ := Option.map_eq_some_iff.mp hn
  obtain ⟨rfl, rfl⟩ := Prod.mk.inj he
  rw [utf8EncodeChar_of_char? hd, List.take_append_drop]

theorem length_lt_of_first? {t rest : Text} {c : Char} (h : first? t = some (c, rest)) :
    rest.length < t.length := by
  have hc := List.length_pos_iff.mpr (String.utf8EncodeChar_ne_nil (c := c))
  rw [eq_append_of_first? h, List.length_append]
  omega

/-- The characters and stray bytes of a text, from left to right. -/
def pieces (t : Text) : List Piece :=
  match h : first? t with
  | some (c, rest) =>
    have := length_lt_of_first? h
    .char c :: pieces rest
  | none =>
    match t with
    | [] => []
    | a :: as => .stray a :: pieces as
termination_by t.length

/-- The characters of a text, with U+FFFD in place of each stray byte. -/
def chars (t : Text) : List Char := t.pieces.map Piece.shown

/-- Whether the whole text is UTF-8. -/
def isUtf8 (t : Text) : Bool := t.pieces.all Piece.isChar

/-- The bytes before the first occurrence of `b`, and those after it. -/
def cut? (b : UInt8) : Text → Option (Text × Text)
  | [] => none
  | x :: xs => if x = b then some ([], xs) else (cut? b xs).map fun p => (x :: p.1, p.2)

/-- The parts of a text between the occurrences of `b`. -/
def split (b : UInt8) : Text → List Text
  | [] => [[]]
  | x :: xs =>
    if x = b then [] :: split b xs
    else match split b xs with
      | [] => [[x]]
      | part :: parts => (x :: part) :: parts

/-- The texts one after the other with `sep` between neighbours. -/
def join (sep : Text) (parts : List Text) : Text := (parts.intersperse sep).flatten

/-- Whether a text is one of the given words. -/
def isOneOf (words : List String) (t : Text) : Bool := words.any fun w => ofString w = t

/-- Bytewise order, a text before every longer text it begins. -/
def le : Text → Text → Bool
  | [], _ => true
  | _ :: _, [] => false
  | a :: as, b :: bs => a < b || a = b && le as bs

end Text

end TinyLisp

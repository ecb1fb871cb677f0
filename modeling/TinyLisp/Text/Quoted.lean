import TinyLisp.Text.Printable

/-!
Quoted text: a text between double quotes, on one line and free of unprintable characters.
-/

namespace TinyLisp.Text

/-- The lower-case hexadecimal digit of a number below 16. -/
def hexDigit (n : Nat) : Char :=
  if n < 10 then Char.ofNat (48 + n) else Char.ofNat (87 + n)

/-- The last `width` hexadecimal digits of `n`. -/
def hex : Nat → Nat → List Char
  | 0, _ => []
  | width + 1, n => hex width (n / 16) ++ [hexDigit (n % 16)]

/-- The escape of a character that is not printable: a letter where one is customary, else the
code point in the shortest of the three widths. -/
def escape (c : Char) : List Char :=
  match c.toNat with
  | 7 => ['\\', 'a']
  | 8 => ['\\', 'b']
  | 9 => ['\\', 't']
  | 10 => ['\\', 'n']
  | 11 => ['\\', 'v']
  | 12 => ['\\', 'f']
  | 13 => ['\\', 'r']
  | v =>
    if v < 0x80 then '\\' :: 'x' :: hex 2 v
    else if v < 0x10000 then '\\' :: 'u' :: hex 4 v
    else '\\' :: 'U' :: hex 8 v

/-- A quote and a backslash are escaped, a printable character stands for itself, and a stray byte
is written as its two digits. -/
def quotePiece : Piece → List Char
  | .char c =>
    if c = '"' ∨ c = '\\' then ['\\', c]
    else if isPrintable c then [c]
    else escape c
  | .stray b => '\\' :: 'x' :: hex 2 b.toNat

def quoteChars (t : Text) : List Char :=
  '"' :: t.pieces.flatMap quotePiece ++ ['"']

/-- The text in double quotes. -/
def quote (t : Text) : Text := ofChars t.quoteChars

end TinyLisp.Text

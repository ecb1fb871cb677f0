import TinyLisp.Text.Basic

/-!
Escaped bytes: a percent sign and two hexadecimal digits stand for the byte of that number.
-/

namespace TinyLisp

namespace Text

def percent : UInt8 := 37

def hexValue? (b : UInt8) : Option UInt8 :=
  if 48 ≤ b ∧ b ≤ 57 then some (b - 48)
  else if 65 ≤ b ∧ b ≤ 70 then some (b - 55)
  else if 97 ≤ b ∧ b ≤ 102 then some (b - 87)
  else none

def isHexDigit (b : UInt8) : Bool := (hexValue? b).isSome

/-- The first percent sign that escapes nothing, with up to two bytes after it. -/
def badEscape? : Text → Option Text
  | [] => none
  | b :: t =>
    if b = percent then
      match t with
      | x :: y :: rest => if isHexDigit x && isHexDigit y then badEscape? rest else some [b, x, y]
      | t => some (b :: t)
    else badEscape? t

/-- The text with each escaped byte in the place of its escape. A percent sign that escapes nothing
stays. -/
def unescape : Text → Text
  | 37 :: a :: b :: t =>
    match hexValue? a, hexValue? b with
    | some x, some y => (x * 16 + y) :: unescape t
    | _, _ => 37 :: unescape (a :: b :: t)
  | c :: t => c :: unescape t
  | [] => []

/-- The text without its escapes, if they are all well formed. -/
def unescape? (t : Text) : Option Text :=
  if (badEscape? t).isSome then none else some t.unescape

end Text

end TinyLisp

import TinyLisp.Text.Basic

/-!
Whole numbers in decimal: how they are written, and which spellings are read.
-/

namespace TinyLisp

/-- The digits of an integer, with a minus sign in front of a negative one. -/
def decimal (i : Int) : List Char :=
  if i < 0 then '-' :: Nat.toDigits 10 i.natAbs else Nat.toDigits 10 i.natAbs

/-- The number spelled by one or more decimal digits. -/
def digits? (cs : List Char) : Option Nat :=
  if cs ≠ [] ∧ cs.all Char.isDigit then some (Nat.ofDigitChars 10 cs 0) else none

/-- The integer spelled by digits after at most one sign. -/
def integer? : List Char → Option Int
  | '+' :: cs => (digits? cs).map Int.ofNat
  | '-' :: cs => (digits? cs).map fun n : Nat => -(n : Int)
  | cs => (digits? cs).map Int.ofNat

/-- The 32-bit integer spelled in decimal, if the exact value fits. -/
def int32? (cs : List Char) : Option Int32 :=
  match integer? cs with
  | some v => if -2147483648 ≤ v ∧ v ≤ 2147483647 then some (Int32.ofInt v) else none
  | none => none

def Text.decimal (i : Int) : Text := ofChars (TinyLisp.decimal i)

end TinyLisp

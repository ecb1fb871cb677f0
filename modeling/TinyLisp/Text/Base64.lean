import TinyLisp.Text.Basic

/-!
Bytes written in 64 characters: four characters carry three bytes, and equals signs fill up the
last four.
-/

namespace TinyLisp.Text.Base64

/-- The six bits that a character carries. -/
def bits? (b : UInt8) : Option Nat :=
  if 65 ≤ b ∧ b ≤ 90 then some (b.toNat - 65)
  else if 97 ≤ b ∧ b ≤ 122 then some (b.toNat - 71)
  else if 48 ≤ b ∧ b ≤ 57 then some (b.toNat + 4)
  else if b = 43 then some 62
  else if b = 47 then some 63
  else none

def equals : UInt8 := 61

/-- The bytes that some groups of six bits carry. Bits that make no whole byte are dropped. -/
def bytes : List Nat → Text
  | a :: b :: c :: d :: rest =>
    UInt8.ofNat (a * 4 + b / 16) :: UInt8.ofNat (b % 16 * 16 + c / 4) ::
      UInt8.ofNat (c % 4 * 64 + d) :: bytes rest
  | [a, b, c] => [UInt8.ofNat (a * 4 + b / 16), UInt8.ofNat (b % 16 * 16 + c / 4)]
  | [a, b] => [UInt8.ofNat (a * 4 + b / 16)]
  | _ => []

/-- The bytes that a text carries. Line ends in it are ignored; the fill must be complete. -/
def decode? (t : Text) : Option Text :=
  let t := t.filter fun b => b ≠ 10 ∧ b ≠ 13
  let body := t.takeWhile (· ≠ equals)
  let fill := t.dropWhile (· ≠ equals)
  let wanted := if body.length % 4 = 0 then 0 else 4 - body.length % 4
  if body.length % 4 = 1 ∨ fill ≠ List.replicate wanted equals then none
  else (body.mapM bits?).map bytes

end TinyLisp.Text.Base64

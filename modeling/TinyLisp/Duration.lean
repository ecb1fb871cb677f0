import TinyLisp.Text.Decimal

/-!
Lengths of time: nanoseconds that are written and read with units.
-/

namespace TinyLisp

/-- Nanoseconds in 64 bits. -/
structure Duration where
  nanos : Int64
  deriving DecidableEq, Repr

namespace Duration

def seconds (n : Nat) : Duration := ⟨Int64.ofNat (n * 1000000000)⟩

/-- The digits without the zeros at their end. -/
def dropZeros (cs : List Char) : List Char := (cs.reverse.dropWhile (· = '0')).reverse

/-- The last `places` digits of `n` as a decimal fraction; nothing if they are all zero. -/
def fraction (places n : Nat) : List Char :=
  let digits := Nat.toDigits 10 (n % Nat.pow 10 places)
  match dropZeros (List.replicate (places - digits.length) '0' ++ digits) with
  | [] => []
  | ds => '.' :: ds

/-- A number of nanoseconds: below a second in the largest unit that leaves a whole part, from a
second on in hours, minutes and seconds, of which leading zero parts are left out. -/
def spellNat (n : Nat) : List Char :=
  if n = 0 then "0s".toList
  else if n < 1000 then Nat.toDigits 10 n ++ "ns".toList
  else if n < 1000000 then Nat.toDigits 10 (n / 1000) ++ fraction 3 n ++ "µs".toList
  else if n < 1000000000 then Nat.toDigits 10 (n / 1000000) ++ fraction 6 n ++ "ms".toList
  else
    let s := n / 1000000000
    let tail := Nat.toDigits 10 (s % 60) ++ fraction 9 n ++ ['s']
    if s < 60 then tail
    else if s < 3600 then Nat.toDigits 10 (s / 60) ++ 'm' :: tail
    else Nat.toDigits 10 (s / 3600) ++ 'h' :: Nat.toDigits 10 (s / 60 % 60) ++ 'm' :: tail

def spell (d : Duration) : List Char :=
  let i := d.nanos.toInt
  if i < 0 then '-' :: spellNat i.natAbs else spellNat i.natAbs

def render (d : Duration) : Text := Text.ofChars d.spell

/-- The nanoseconds of a unit. The two spellings of the micro sign both count. -/
def unit? (u : List Char) : Option Nat :=
  if u = "ns".toList then some 1
  else if u = "us".toList ∨ u = ['\u00b5', 's'] ∨ u = ['\u03bc', 's'] then some 1000
  else if u = "ms".toList then some 1000000
  else if u = "s".toList then some 1000000000
  else if u = "m".toList then some 60000000000
  else if u = "h".toList then some 3600000000000
  else none

/-- Two to the 63rd, the first number of nanoseconds that is too many. -/
def bound : Nat := 9223372036854775808

/-- The digits of a fraction as a number and the power of ten that divides it. Digits that no
longer fit are dropped. -/
def fractionDigits (x : Nat) (scale : Float) : List Char → Nat × Float
  | [] => (x, scale)
  | c :: cs =>
    let y := x * 10 + (c.toNat - 48)
    if (bound - 1) / 10 < x ∨ bound < y then (x, scale) else fractionDigits y (scale * 10) cs

/-- The nanoseconds in a fraction of a unit, rounded as floating-point arithmetic does. -/
def fractionNanos (digits : List Char) (unit : Nat) : Nat :=
  let (f, scale) := fractionDigits 0 1 digits
  if f = 0 then 0
  else ((UInt64.ofNat f).toFloat * ((UInt64.ofNat unit).toFloat / scale)).toUInt64.toNat

/-- The digits behind a decimal point at the front of the characters, and what follows. -/
def pointDigits : List Char → List Char × List Char
  | '.' :: ds => (ds.takeWhile Char.isDigit, ds.dropWhile Char.isDigit)
  | ds => ([], ds)

def isUnitChar (c : Char) : Bool := c ≠ '.' && !c.isDigit

/-- A number with a unit at the front of the characters: its nanoseconds, and what follows. -/
def component? (cs : List Char) : Option (Nat × List Char) :=
  let whole := cs.takeWhile Char.isDigit
  let (part, rest) := pointDigits (cs.dropWhile Char.isDigit)
  if whole = [] ∧ part = [] then none
  else match unit? (rest.takeWhile isUnitChar) with
    | none => none
    | some unit =>
      let n := Nat.ofDigitChars 10 whole 0
      let nanos := n * unit + fractionNanos part unit
      if bound < n ∨ bound / unit < n ∨ bound < nanos then none
      else some (nanos, rest.dropWhile isUnitChar)

section Component

variable {cs rest : List Char} {n : Nat}

theorem length_pointDigits_le (cs : List Char) : (pointDigits cs).2.length ≤ cs.length := by
  fun_cases pointDigits cs with
  | case1 ds => exact Nat.le_succ_of_le (List.dropWhile_sublist Char.isDigit).length_le
  | case2 => exact Nat.le_refl _

/-- A number with a unit is within the bound, and its unit has a character at least. -/
theorem of_component? (h : component? cs = some (n, rest)) :
    n ≤ bound ∧ ∃ ds : List Char, ds.length ≤ cs.length ∧ ds.takeWhile isUnitChar ≠ [] ∧
      rest = ds.dropWhile isUnitChar := by
  have hpart := length_pointDigits_le (cs.dropWhile Char.isDigit)
  have hwhole := (List.dropWhile_sublist Char.isDigit (l := cs)).length_le
  rw [component?] at h
  dsimp only at h
  split at h
  · cases h
  · split at h
    · cases h
    · rename_i unit hunit
      split at h
      · cases h
      · rename_i hbounds
        obtain ⟨rfl, rfl⟩ := Prod.mk.inj (Option.some.inj h)
        refine ⟨by omega, _, Nat.le_trans hpart hwhole, ?_, rfl⟩
        intro hnil
        rw [hnil] at hunit
        cases hunit

theorem length_lt_of_component? (h : component? cs = some (n, rest)) :
    rest.length < cs.length := by
  obtain ⟨-, ds, hds, hunit, rfl⟩ := of_component? h
  have hpos := List.length_pos_iff.mpr hunit
  have hsplit := congrArg List.length
    (List.takeWhile_append_dropWhile (p := isUnitChar) (l := ds))
  rw [List.length_append] at hsplit
  omega

end Component

/-- Numbers with units, one after the other, added up in a word of 64 bits. A sum wraps before it is
held against the bound. -/
def sum? (total : UInt64) (cs : List Char) : Option UInt64 :=
  if cs = [] then some total
  else match h : component? cs with
    | none => none
    | some (n, rest) =>
      have := length_lt_of_component? h
      let more := total + UInt64.ofNat n
      if bound < more.toNat then none else sum? more rest
termination_by cs.length

def isNegative (cs : List Char) : Bool := cs.head? = some '-'

/-- The characters without a sign in front. -/
def unsigned (cs : List Char) : List Char :=
  if cs.head? = some '-' ∨ cs.head? = some '+' then cs.drop 1 else cs

/-- So many nanoseconds, or as many below zero. Only these can be as many as the bound. -/
def ofSum? (negative : Bool) (n : UInt64) : Option Duration :=
  if negative then some ⟨-n.toInt64⟩
  else if n.toNat < bound then some ⟨n.toInt64⟩
  else none

/-- The duration that a text spells; a bare zero needs no unit. -/
def parse? (t : Text) : Option Duration :=
  let body := unsigned t.chars
  if body = ['0'] then some ⟨0⟩
  else if body = [] then none
  else (sum? 0 body).bind (ofSum? (isNegative t.chars))

end Duration

end TinyLisp

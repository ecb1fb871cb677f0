import TinyLisp.Text.Basic

/-!
Whole numbers with a choice of base: decimal, binary after `0b`, octal after `0o` or a leading
zero, and hexadecimal after `0x`, with single underscores between digits.
-/

namespace TinyLisp

/-- Why a text is no 64-bit integer. -/
inductive NumeralFault where
  | notANumber
  | outOfRange
  deriving DecidableEq, Repr

namespace Numeral

/-- The value of a digit or letter. -/
def digit? (c : Char) : Option Nat :=
  if c.isDigit then some (c.toNat - 48)
  else if 'a' ≤ c ∧ c ≤ 'z' then some (c.toNat - 87)
  else if 'A' ≤ c ∧ c ≤ 'Z' then some (c.toNat - 55)
  else none

/-- The base that the front of a numeral announces, and the digits after the announcement. -/
def splitBase : List Char → Nat × List Char
  | '0' :: x :: c :: cs =>
    if x = 'b' ∨ x = 'B' then (2, c :: cs)
    else if x = 'o' ∨ x = 'O' then (8, c :: cs)
    else if x = 'x' ∨ x = 'X' then (16, c :: cs)
    else (8, x :: c :: cs)
  | '0' :: cs => (8, cs)
  | cs => (10, cs)

/-- The value of digits in a base, read from the left up to the first one that is none or that
makes the number longer than 64 bits. -/
def value (base n : Nat) : List Char → Except NumeralFault Nat
  | [] => .ok n
  | '_' :: cs => value base n cs
  | c :: cs =>
    match digit? c with
    | none => .error .notANumber
    | some d =>
      if base ≤ d then .error .notANumber
      else if 18446744073709551615 < n * base + d then .error .outOfRange
      else value base (n * base + d) cs

/-- What the character before the current one was. -/
inductive Before where
  | start
  | digit
  | underscore
  deriving DecidableEq

/-- Whether every underscore stands between two digits. -/
def underscoresOk (hex : Bool) : Before → List Char → Bool
  | before, [] => before ≠ .underscore
  | before, c :: cs =>
    if c = '_' then before = .digit && underscoresOk hex .underscore cs
    else if c.isDigit || hex && (digit? c).isSome then underscoresOk hex .digit cs
    else before ≠ .underscore && underscoresOk hex .start cs

/-- A base announced by a letter counts as a digit before an underscore. -/
def hasGoodUnderscores : List Char → Bool
  | '0' :: x :: cs =>
    if x = 'b' ∨ x = 'B' ∨ x = 'o' ∨ x = 'O' then underscoresOk false .digit cs
    else if x = 'x' ∨ x = 'X' then underscoresOk true .digit cs
    else underscoresOk false .start ('0' :: x :: cs)
  | cs => underscoresOk false .start cs

/-- A numeral without a sign. -/
def natural (cs : List Char) : Except NumeralFault Nat :=
  if cs = [] then .error .notANumber
  else
    let (base, digits) := splitBase cs
    match value base 0 digits with
    | .error f => .error f
    | .ok n => if hasGoodUnderscores cs then .ok n else .error .notANumber

/-- A numeral of 64 bits with at most one sign. -/
def int64 (cs : List Char) : Except NumeralFault Int64 :=
  let negative := cs.head? = some '-'
  let body := if cs.head? = some '-' ∨ cs.head? = some '+' then cs.drop 1 else cs
  match natural body with
  | .error f => .error f
  | .ok n =>
    if negative then
      if n ≤ 9223372036854775808 then .ok (Int64.ofInt (-(n : Int))) else .error .outOfRange
    else if n < 9223372036854775808 then .ok (Int64.ofNat n)
    else .error .outOfRange

end Numeral

end TinyLisp

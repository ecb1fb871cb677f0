import TinyLisp.Document.Tag
import TinyLisp.Document.Timestamp
import TinyLisp.Text.Numeral

/-!
What a plain scalar of a document stands for: nothing, a truth value, a number, a point in time or
text.
-/

namespace TinyLisp.Document

/-- The meaning of a plain scalar. -/
inductive Meaning where
  | null
  | bool (b : Bool)
  | int (i : Int)
  | float (f : Float)
  | timestamp
  | text

/-- The tag of a scalar with this meaning. -/
def Meaning.tag : Meaning → Text
  | .null => Tag.null
  | .bool _ => Tag.bool
  | .int _ => Tag.int
  | .float _ => Tag.float
  | .timestamp => Tag.timestamp
  | .text => Tag.str

/-- The words that stand for something else than text. -/
def words : List (String × Meaning) :=
  [("", .null), ("~", .null), ("null", .null), ("Null", .null), ("NULL", .null),
    ("true", .bool true), ("True", .bool true), ("TRUE", .bool true),
    ("false", .bool false), ("False", .bool false), ("FALSE", .bool false),
    (".nan", .float (0 / 0)), (".NaN", .float (0 / 0)), (".NAN", .float (0 / 0)),
    (".inf", .float (1 / 0)), (".Inf", .float (1 / 0)), (".INF", .float (1 / 0)),
    ("+.inf", .float (1 / 0)), ("+.Inf", .float (1 / 0)), ("+.INF", .float (1 / 0)),
    ("-.inf", .float (-1 / 0)), ("-.Inf", .float (-1 / 0)), ("-.INF", .float (-1 / 0))]

/-- Digits of a base with at most one sign, as a number of 64 bits. -/
def signedDigits? (base : Nat) (cs : List Char) : Option Int :=
  let negative := cs.head? = some '-'
  let digits := if negative ∨ cs.head? = some '+' then cs.drop 1 else cs
  match digits, Numeral.value base 0 digits with
  | [], _ | _, .error _ => none
  | _, .ok n =>
    if negative then if n ≤ 9223372036854775808 then some (-n) else none
    else if n < 9223372036854775808 then some n else none

/-- A number whose sign stands behind the letter for its base. -/
def innerSigned? : List Char → Option Int
  | '0' :: 'b' :: cs => signedDigits? 2 cs
  | '0' :: 'o' :: cs => signedDigits? 8 cs
  | _ => none

/-- An integer as documents write it; without a sign it may need the 64th bit. -/
def integer? (cs : List Char) : Option Int :=
  match Numeral.int64 cs with
  | .ok i => some i.toInt
  | .error _ =>
    match Numeral.natural cs with
    | .ok n => some n
    | .error _ => innerSigned? cs

/-- The exponent after the digits of a decimal; zero if nothing follows them. -/
def exponent? : List Char → Option Int
  | [] => some 0
  | e :: cs =>
    if e = 'e' ∨ e = 'E' then
      let negative := cs.head? = some '-'
      let digits := if cs.head? = some '-' ∨ cs.head? = some '+' then cs.drop 1 else cs
      if digits = [] ∨ !digits.all Char.isDigit then none
      else
        let n : Int := Nat.ofDigitChars 10 digits 0
        some (if negative then -n else n)
    else none

/-- The double nearest to `digits * 10 ^ exponent`, if there is a finite one. -/
def double? (digits : Nat) (exponent : Int) : Option Float :=
  let size : Int := (Nat.toDigits 10 digits).length + exponent
  if digits = 0 ∨ size < -400 then some 0
  else if 400 < size then none
  else
    let f := Float.ofScientific digits (exponent < 0) exponent.natAbs
    if f.isInf then none else some f

/-- A decimal with a point or an exponent, or with neither. -/
def float? (cs : List Char) : Option Float :=
  let negative := cs.head? = some '-'
  let body := if cs.head? = some '-' ∨ cs.head? = some '+' then cs.drop 1 else cs
  let whole := body.takeWhile Char.isDigit
  let afterWhole := body.dropWhile Char.isDigit
  let part := match afterWhole with
    | '.' :: ds => ds.takeWhile Char.isDigit
    | _ => []
  let rest := match afterWhole with
    | '.' :: ds => ds.dropWhile Char.isDigit
    | ds => ds
  if whole = [] ∧ part = [] then none
  else match exponent? rest with
    | none => none
    | some e =>
      match double? (Nat.ofDigitChars 10 (whole ++ part) 0) (e - part.length) with
      | none => none
      | some f => some (if negative then -f else f)

def withoutUnderscores (cs : List Char) : List Char := cs.filter (· ≠ '_')

/-- The number that some characters spell. Underscores in it are ignored, though behind a leading
point they have to stand between digits. -/
def number? (cs : List Char) : Option Meaning :=
  let plain := withoutUnderscores cs
  if cs.head? = some '.' then
    if Numeral.hasGoodUnderscores cs then (float? plain).map .float else none
  else match integer? plain with
    | some i => some (.int i)
    | none => (float? plain).map .float

/-- What a plain scalar stands for. Points in time count as text unless they are looked for. -/
def meaning (timestamps : Bool) (cs : List Char) : Meaning :=
  match words.lookup (String.ofList cs), cs with
  | some m, _ => m
  | none, [] => .null
  | none, c :: _ =>
    if timestamps && Timestamp.accepts cs then .timestamp
    else if c = '.' ∨ c.isDigit ∨ c = '+' ∨ c = '-' then (number? cs).getD .text
    else .text

end TinyLisp.Document

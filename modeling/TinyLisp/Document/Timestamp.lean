import TinyLisp.Text.Basic

/-!
Points in time as documents write them: a day, possibly with a time of that day. Behind the letter
`T` a time has a zone, and behind a space it has none.
-/

namespace TinyLisp.Document.Timestamp

def daysIn (year month : Nat) : Nat :=
  if month = 2 then
    if year % 4 = 0 ∧ (year % 100 ≠ 0 ∨ year % 400 = 0) then 29 else 28
  else if month = 4 ∨ month = 6 ∨ month = 9 ∨ month = 11 then 30
  else 31

/-- A number of one or two digits at the front, and what follows it. -/
def shortNumber? (cs : List Char) : Option (Nat × List Char) :=
  let ds := (cs.take 2).takeWhile Char.isDigit
  if ds = [] then none else some (Nat.ofDigitChars 10 ds 0, cs.drop ds.length)

/-- What follows a character at the front. -/
def behind? (c : Char) : List Char → Option (List Char)
  | [] => none
  | d :: cs => if c = d then some cs else none

/-- A number below `limit` at the front. -/
def below? (limit : Nat) (cs : List Char) : Option (List Char) := do
  let (n, rest) ← shortNumber? cs
  if n < limit then some rest else none

/-- A fraction of a second, if there is one. -/
def skipFraction (cs : List Char) : List Char :=
  match cs with
  | c :: d :: rest =>
    if (c = '.' ∨ c = ',') ∧ d.isDigit then rest.dropWhile Char.isDigit else cs
  | _ => cs

/-- Hours, minutes and seconds, with what follows them. -/
def clock? (cs : List Char) : Option (List Char) := do
  let cs ← behind? ':' (← below? 24 cs)
  let cs ← behind? ':' (← below? 60 cs)
  return skipFraction (← below? 60 cs)

/-- Two digits that spell a number up to `limit`. -/
def twoDigits (limit : Nat) (a b : Char) : Bool :=
  a.isDigit && b.isDigit && Nat.ofDigitChars 10 [a, b] 0 ≤ limit

/-- A time zone: the letter `Z`, or hours and minutes with a sign. -/
def isZone : List Char → Bool
  | ['Z'] => true
  | [sign, a, b, ':', c, d] => (sign = '+' || sign = '-') && twoDigits 24 a b && twoDigits 60 c d
  | _ => false

/-- What may follow the day. -/
def isTimeOfDay (cs : List Char) : Bool :=
  match cs with
  | [] => true
  | c :: rest =>
    if c = 'T' ∨ c = 't' then (clock? rest).any isZone
    else c = ' ' && (clock? (rest.dropWhile (· = ' '))).any List.isEmpty

/-- Whether some characters are a point in time. The year has four digits. -/
def accepts (cs : List Char) : Bool :=
  let year := cs.takeWhile Char.isDigit
  let parsed := do
    let (month, rest) ← shortNumber? (← behind? '-' (cs.drop 4))
    let (day, rest) ← shortNumber? (← behind? '-' rest)
    return (month, day, rest)
  year.length = 4 && parsed.any fun (month, day, rest) =>
    1 ≤ month && month ≤ 12 && 1 ≤ day && day ≤ daysIn (Nat.ofDigitChars 10 year 0) month
      && isTimeOfDay rest

end TinyLisp.Document.Timestamp

import TinyLisp.Document.Lexeme.Basic

/-!
Reading what surrounds the content of a document: names of anchors, tags, and directives.
-/

namespace TinyLisp.Document.Scan

/-- Fails unless a condition holds. -/
def ensure (b : Bool) : Scan Unit := if b then pure () else failure

/-- The characters that may follow the name of an anchor. -/
def afterName (c : Char) : Bool := isBlankOrEnd c || "?:,]\x7d%@`".toList.contains c

/-- The name of an anchor or of a reference to one, from the sign before it on. -/
def name (fuel : Nat) : Scan (List Char) := do
  skip
  need 1
  let cs ← readWhile isNameChar fuel []
  ensure (!cs.isEmpty && afterName (← look 0))
  return cs

def hexDigit? (c : Char) : Option Nat :=
  if c.isDigit then some (c.toNat - 48)
  else if 'a' ≤ c ∧ c ≤ 'f' then some (c.toNat - 87)
  else if 'A' ≤ c ∧ c ≤ 'F' then some (c.toNat - 55)
  else none

/-- The handle of a tag: two exclamation marks with a name between, which may be empty, or what
there is of that. In a directive only a lone mark may lack the second one. -/
def handle (fuel : Nat) (directive : Bool) : Scan (List Char) := do
  need 1
  ensure ((← look 0) = '!')
  skip
  need 1
  let cs ← readWhile isNameChar fuel []
  if (← look 0) = '!' then
    skip
    return '!' :: cs ++ ['!']
  ensure (!directive || cs.isEmpty)
  return '!' :: cs

/-- One byte that is written as a percent sign and two digits. -/
def escapedByte : Scan UInt8 := do
  need 3
  ensure ((← look 0) = '%')
  match hexDigit? (← look 1), hexDigit? (← look 2) with
  | some a, some b =>
    skipMany 3
    return UInt8.ofNat (a * 16 + b)
  | _, _ => failure

/-- The bytes that have to follow the first one of a character. -/
def trailingBytes : Nat → Scan Text
  | 0 => pure []
  | n + 1 => do
    let b ← escapedByte
    ensure (b / 64 = 2)
    return b :: (← trailingBytes n)

/-- A character that is written byte by byte. -/
def escapedChar : Scan Text := do
  let b ← escapedByte
  match Encoding.sequenceWidth? b with
  | none => failure
  | some width => return b :: (← trailingBytes (width - 1))

/-- The characters that may stand in a tag besides those of a name. -/
def tagMarks : List Char := ";/?:@&=+$,.!~*'()[]".toList

/-- The rest of a tag. -/
def tagRest (fuel : Nat) (kept : Text) : Scan Text := do
  match fuel with
  | 0 => return kept
  | fuel + 1 =>
    let c ← look 0
    if c = '%' then
      let bytes ← escapedChar
      need 1
      tagRest fuel (kept ++ bytes)
    else if isNameChar c || tagMarks.contains c then
      skip
      need 1
      tagRest fuel (kept ++ Text.ofChars [c])
    else return kept

/-- A tag without a handle, which must not be empty. -/
def tagText (fuel : Nat) : Scan Text := do
  need 1
  let t ← tagRest fuel []
  ensure (!t.isEmpty)
  return t

/-- A tag: in full between angle brackets, or a handle and a suffix. A lone exclamation mark is a
tag without a handle. -/
def tag (fuel : Nat) : Scan Lexeme.Kind := do
  need 2
  let kind ←
    if (← look 1) = '<' then do
      skipMany 2
      let t ← tagText fuel
      ensure ((← look 0) = '>')
      skip
      pure (Lexeme.Kind.tag [] t)
    else do
      let front ← handle fuel false
      if 1 < front.length ∧ front.getLast? = some '!' then
        pure (Lexeme.Kind.tag (Text.ofChars front) (← tagText fuel))
      else
        need 1
        let t ← tagRest fuel (Text.ofChars (front.drop 1))
        pure (if t = [] then .tag [] "!" else .tag "!" t)
  need 1
  ensure (isBlankOrEnd (← look 0))
  return kind

/-- A number of one or two digits. -/
def versionNumber (fuel : Nat) : Scan Nat := do
  need 1
  let ds ← readWhile Char.isDigit fuel []
  ensure (1 ≤ ds.length && ds.length ≤ 2)
  return Nat.ofDigitChars 10 ds 0

def versionDirective (fuel : Nat) : Scan Lexeme.Kind := do
  need 1
  skipWhile isBlank fuel
  let major ← versionNumber fuel
  ensure ((← look 0) = '.')
  skip
  return .version major (← versionNumber fuel)

def shorthandDirective (fuel : Nat) : Scan Lexeme.Kind := do
  need 1
  skipWhile isBlank fuel
  let front ← handle fuel true
  need 1
  ensure (isBlank (← look 0))
  skipWhile isBlank fuel
  let start ← tagText fuel
  need 1
  ensure (isBlankOrEnd (← look 0))
  return .shorthand (Text.ofChars front) start

/-- A directive with the line it takes, from the percent sign on. -/
def directive (fuel : Nat) : Scan Lexeme.Kind := do
  skip
  need 1
  let cs ← readWhile isNameChar fuel []
  ensure (isBlankOrEnd (← look 0))
  let kind ←
    if cs = "YAML".toList then versionDirective fuel
    else if cs = "TAG".toList then shorthandDirective fuel
    else failure
  need 1
  skipWhile isBlank fuel
  if (← look 0) = '#' then skipWhile (fun c => !isBreakOrEnd c) fuel
  let c ← look 0
  ensure (isBreakOrEnd c)
  if isBreak c then
    need 2
    skipLine
  return kind

end TinyLisp.Document.Scan

import TinyLisp.Document.Encoding

/-!
A place in a document. Characters are decoded ahead of it as far as they are asked for, a block of
bytes at a time; the null character, which no document holds, stands for the end.

What moves a cursor is an action of type `Scan`. It fails where the text is no document.
-/

namespace TinyLisp.Document

/-- A character on which a line ends. -/
def isBreak (c : Char) : Bool :=
  c = '\n' || c = '\r' || c = '\u0085' || c = '\u2028' || c = '\u2029'

def isBlank (c : Char) : Bool := c = ' ' || c = '\t'

/-- The character that stands for the end of a document. -/
def endMark : Char := Char.ofNat 0

def isBreakOrEnd (c : Char) : Bool := isBreak c || c = endMark

def isBlankOrEnd (c : Char) : Bool := isBlank c || isBreakOrEnd c

/-- A letter, digit, underscore or dash: what names of anchors and handles of tags are made of. -/
def isNameChar (c : Char) : Bool := c.isAlphanum || c = '_' || c = '-'

def byteOrderMark : Char := '\ufeff'

structure Cursor where
  /-- The characters that are decoded and not read. -/
  ahead : List Char
  /-- The first of the characters that were in hand when some were last decoded. -/
  first : Char
  /-- Bytes that are loaded and not decoded. -/
  loaded : Text
  /-- Bytes that are not loaded. -/
  unloaded : Text
  /-- Whether the end of the bytes was met. -/
  ended : Bool
  encoding : Encoding
  /-- The number of characters before this place. -/
  index : Nat
  line : Nat
  column : Nat
  /-- Whether nothing but blanks has been read since the last line end. -/
  fresh : Bool

/-- An action on a cursor. -/
abbrev Scan := StateT Cursor Option

namespace Cursor

/-- The number of bytes that are loaded at a time. -/
def blockSize : Nat := 512

/-- Loads what fits into a block. The end is met when nothing is left to load. -/
def load (p : Cursor) : Cursor :=
  if p.ended then p
  else if p.unloaded = [] then { p with ended := true }
  else
    let room := blockSize - p.loaded.length
    { p with loaded := p.loaded ++ p.unloaded.take room, unloaded := p.unloaded.drop room }

/-- Loads until there are three bytes to tell the encoding by. -/
def loadMark (fuel : Nat) (p : Cursor) : Cursor :=
  match fuel with
  | 0 => p
  | fuel + 1 => if p.ended ∨ 3 ≤ p.loaded.length then p else p.load.loadMark fuel

/-- The start of a document. An empty one counts as one empty line. -/
def ofText (t : Text) : Cursor :=
  let p : Cursor :=
    { ahead := [], first := endMark, loaded := [], unloaded := if t = [] then "\n" else t
      ended := false, encoding := .utf8, index := 0, line := 1, column := 0, fresh := false }
  let p := p.loadMark 4
  let (encoding, rest) := Encoding.detect p.loaded
  { p with encoding := encoding, loaded := rest }

/-- Whether `n` characters are in hand. -/
def has (p : Cursor) (n : Nat) : Bool := n = 0 || !(p.ahead.drop (n - 1)).isEmpty

/-- Decodes what is loaded. The mark for the end follows the last block. -/
def decodeLoaded (p : Cursor) : Option Cursor :=
  match p.encoding.decode p.ended p.loaded with
  | none => none
  | some (cs, rest) =>
    some { p with ahead := p.ahead ++ cs ++ (if p.ended then [endMark] else []), loaded := rest }

/-- Decodes blocks until `n` characters are in hand or the end is met. A block is loaded before
that, unless one is there that was not decoded and this is not done `again`. -/
def fill (fuel n : Nat) (again : Bool) (p : Cursor) : Option Cursor :=
  match fuel with
  | 0 => some p
  | fuel + 1 =>
    if p.has n then some p
    else match (if again ∨ p.loaded = [] then p.load else p).decodeLoaded with
      | none => none
      | some q => if q.ended then some q else q.fill fuel n true

/-- Has `n` characters in hand, unless the end comes before that. -/
def need (n : Nat) (p : Cursor) : Option Cursor :=
  if p.has n then some p
  else (p.fill (n + 4) n false).map fun q => { q with first := q.ahead.headD endMark }

/-- The character `n` places ahead. -/
def get (p : Cursor) (n : Nat) : Char := p.ahead.getD n endMark

/-- The place behind the next character, which ends no line. -/
def next (p : Cursor) : Cursor :=
  { p with
    ahead := p.ahead.drop 1
    index := p.index + 1
    column := p.column + 1
    fresh := p.fresh && isBlank (p.get 0) }

/-- The place behind a line end. -/
def nextLine (p : Cursor) : Cursor :=
  let width := if p.get 0 = '\r' && p.get 1 = '\n' then 2 else 1
  if isBreak (p.get 0) then
    { p with
      ahead := p.ahead.drop width
      index := p.index + width
      line := p.line + 1
      column := 0
      fresh := true }
  else p

/-- What a line end amounts to inside a scalar: most are line feeds there. -/
def lineEnd (p : Cursor) : List Char :=
  let c := p.get 0
  if c = '\u2028' ∨ c = '\u2029' then [c] else if isBreak c then ['\n'] else []

/-- Whether a line starts here with three dashes or dots that stand for themselves. -/
def atMarker (p : Cursor) : Bool :=
  let c := p.get 0
  p.column = 0 && (c = '-' || c = '.') && p.get 1 = c && p.get 2 = c && isBlankOrEnd (p.get 3)

end Cursor

namespace Scan

def need (n : Nat) : Scan Unit := fun p => (p.need n).map fun q => ((), q)

/-- The character `n` places ahead; it must be in hand. -/
def look (n : Nat) : Scan Char := fun p => some (p.get n, p)

def skip : Scan Unit := modify Cursor.next

def skipLine : Scan Unit := modify Cursor.nextLine

/-- Reads a line end. -/
def readLine : Scan (List Char) := fun p => some (p.lineEnd, p.nextLine)

def here : Scan Cursor := get

/-- Skips `n` characters. -/
def skipMany : Nat → Scan Unit
  | 0 => pure ()
  | n + 1 => do skip; skipMany n

/-- Reads characters as long as they are of a kind, and looks one character further. -/
def readWhile (f : Char → Bool) (fuel : Nat) (kept : List Char) : Scan (List Char) := do
  match fuel with
  | 0 => return kept.reverse
  | fuel + 1 =>
    let c ← look 0
    if f c then
      skip
      need 1
      readWhile f fuel (c :: kept)
    else return kept.reverse

def skipWhile (f : Char → Bool) (fuel : Nat) : Scan Unit := do
  let _ ← readWhile f fuel []

/-- The characters that a lookup for a comment passes by at most. -/
def commentReach : Nat := 512

/-- The number of blanks before a comment in the same line, if one follows. -/
def lineComment? (fuel passed : Nat) : Scan (Option Nat) := do
  match fuel with
  | 0 => return none
  | fuel + 1 =>
    need (passed + 1)
    let c ← look passed
    if isBlank c then lineComment? fuel (passed + 1)
    else return if c = '#' then some passed else none

/-- Skips a comment at the end of the line, if something came before it in the line. -/
def skipLineComment (fuel : Nat) : Scan Unit := do
  if (← here).fresh then return
  match ← lineComment? commentReach 0 with
  | none => return
  | some n =>
    need 1
    skipMany n
    skipWhile (fun c => !isBreakOrEnd c) fuel

/-- The number of blanks and line ends before the next comment, if nothing else comes first. Only
the usual line ends are passed by; behind another one character is looked at. -/
def nextComment? (fuel passed : Nat) : Scan (Option Nat) := do
  match fuel with
  | 0 => return none
  | fuel + 1 =>
    need (passed + 1)
    let c ← look passed
    if isBlank c || c = '\r' || c = '\n' then nextComment? fuel (passed + 1)
    else if isBreak c then
      need (passed + 2)
      return none
    else return if c = '#' then some passed else none

/-- Skips blanks and line ends up to the character with the given index. -/
def skipGap (fuel index : Nat) : Scan Unit := do
  match fuel with
  | 0 => return
  | fuel + 1 =>
    need 1
    let p ← here
    if index ≤ p.index then return
    else if isBreak (p.get 0) then
      need 2
      skipLine
      skipGap fuel index
    else
      skip
      skipGap fuel index

/-- Skips the comment here and those in the following lines, with the gaps between them. -/
def skipComments (fuel passed : Nat) : Scan Unit := do
  match fuel with
  | 0 => return
  | fuel + 1 =>
    need (passed + 1)
    let p ← here
    if 0 < passed ∧ 127 < (p.get 0).toNat then return
    match ← nextComment? (commentReach - passed) passed with
    | none => return
    | some n =>
      skipGap (n + 1) (p.index + n)
      need 1
      skipWhile (fun c => !isBreakOrEnd c) (fuel + commentReach)
      skipComments fuel 1

end Scan

end TinyLisp.Document

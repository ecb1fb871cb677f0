import TinyLisp.Document.Lexeme.Word

/-!
Reading scalars: plain, in quotes, or in a block of their own.

`margin` is the column from which on content belongs to the innermost block, and `flow` tells
whether the place is inside a flow collection.
-/

namespace TinyLisp.Document

/-- White space inside a scalar that is kept only if more of the scalar follows. -/
structure Gap where
  /-- Blanks before the first line end, in reverse. -/
  blanks : List Char := []
  /-- Whether there was a line end. -/
  broken : Bool := false
  /-- The first line end; empty if a backslash took it away. -/
  lineEnd : List Char := []
  /-- The line ends after the first. -/
  more : List Char := []

namespace Gap

/-- What the white space amounts to: itself within a line, a space for one line feed, and one line
end less for several. -/
def folded (g : Gap) : List Char :=
  if !g.broken then g.blanks.reverse
  else if g.lineEnd.head? = some '\n' then if g.more = [] then [' '] else g.more
  else g.lineEnd ++ g.more

def addBlank (g : Gap) (c : Char) : Gap := if g.broken then g else { g with blanks := c :: g.blanks }

def addLine (g : Gap) (lineEnd : List Char) : Gap :=
  if g.broken then { g with more := g.more ++ lineEnd }
  else { broken := true, lineEnd := lineEnd }

end Gap

namespace Scan

/-- Reads white space. A tab must not stand for indentation before column `margin`. -/
def gap (margin fuel : Nat) (g : Gap) : Scan Gap := do
  match fuel with
  | 0 => return g
  | fuel + 1 =>
    let p ← here
    let c := p.get 0
    if isBlank c then
      ensure (!(g.broken && c = '\t' && p.column < margin))
      skip
      need 1
      gap margin fuel (g.addBlank c)
    else if isBreak c then
      need 2
      let lineEnd ← readLine
      need 1
      gap margin fuel (g.addLine lineEnd)
    else return g

/-- The characters that end a plain scalar inside a flow collection. -/
def flowMarks : List Char := ",?[]\x7b\x7d".toList

/-- Reads a plain scalar up to the next blank. What is kept is in reverse. -/
def plainRun (flow : Bool) (fuel : Nat) (kept : List Char) (g : Gap) :
    Scan (List Char × Gap) := do
  match fuel with
  | 0 => return (kept, g)
  | fuel + 1 =>
    let c ← look 0
    if isBlankOrEnd c || c = ':' && isBlankOrEnd (← look 1) || flow && flowMarks.contains c then
      return (kept, g)
    skip
    need 2
    plainRun flow fuel (c :: (g.folded.reverse ++ kept)) {}

/-- A plain scalar, and whether white space with a line end was read behind it. It ends at a
comment, at a colon before a blank, and at a line that is not indented to the margin. -/
def plain (flow : Bool) (margin fuel : Nat) (kept : List Char) (g : Gap) :
    Scan (List Char × Bool) := do
  match fuel with
  | 0 => return (kept.reverse, g.broken)
  | fuel + 1 =>
    need 4
    let p ← here
    if p.atMarker || p.get 0 = '#' then return (kept.reverse, g.broken)
    let (kept, g) ← plainRun flow (fuel + 1) kept g
    let c ← look 0
    if !(isBlank c || isBreak c) then return (kept.reverse, g.broken)
    need 1
    let g ← gap margin (fuel + 1) g
    if !flow && (← here).column < margin then return (kept.reverse, g.broken)
    plain flow margin fuel kept g

def apostrophe : Char := Char.ofNat 39

/-- The character that a backslash and the given character stand for. -/
def escaped? (c : Char) : Option Char :=
  [('0', 0x00), ('a', 0x07), ('b', 0x08), ('t', 0x09), ('\t', 0x09), ('n', 0x0A), ('v', 0x0B),
    ('f', 0x0C), ('r', 0x0D), ('e', 0x1B), (' ', 0x20), ('"', 0x22), (apostrophe, 0x27),
    ('/', 0x2F), ('\\', 0x5C), ('N', 0x85), ('_', 0xA0), ('L', 0x2028), ('P', 0x2029)].lookup c
    |>.map Char.ofNat

/-- How many hexadecimal digits follow a backslash and this letter. -/
def escapeWidth? (c : Char) : Option Nat := [('x', 2), ('u', 4), ('U', 8)].lookup c

/-- The next characters as hexadecimal digits. -/
def hexNumber (width : Nat) : Scan Nat := do
  need width
  let p ← here
  match ((List.range width).map p.get).mapM hexDigit? with
  | none => failure
  | some ds =>
    skipMany width
    return ds.foldl (fun n d => n * 16 + d) 0

/-- A character behind a backslash. -/
def escape : Scan Char := do
  let c ← look 1
  match escapeWidth? c, escaped? c with
  | some width, _ =>
    skipMany 2
    let v ← hexNumber width
    if v.isValidChar then return Char.ofNat v else failure
  | none, some x =>
    skipMany 2
    return x
  | none, none => failure

/-- Reads a scalar in the given quotes up to the next blank, in reverse, and tells whether a line
end behind a backslash was read after that. -/
def quotedRun (quote : Char) (fuel : Nat) (kept : List Char) : Scan (List Char × Bool) := do
  match fuel with
  | 0 => return (kept, false)
  | fuel + 1 =>
    let c ← look 0
    let d ← look 1
    if isBlankOrEnd c then return (kept, false)
    else if c = quote then
      if c = apostrophe ∧ d = apostrophe then
        skipMany 2
        need 2
        quotedRun quote fuel (c :: kept)
      else return (kept, false)
    else if c = '\\' ∧ quote ≠ apostrophe then
      if isBreak d then
        need 3
        skip
        skipLine
        return (kept, true)
      else
        let x ← escape
        need 2
        quotedRun quote fuel (x :: kept)
    else
      skip
      need 2
      quotedRun quote fuel (c :: kept)

/-- A scalar in quotes, behind the first one. -/
def quotedFrom (quote : Char) (fuel : Nat) (kept : List Char) : Scan (List Char) := do
  match fuel with
  | 0 => failure
  | fuel + 1 =>
    need 4
    let p ← here
    ensure (!p.atMarker && p.get 0 ≠ endMark)
    let (kept, joined) ← quotedRun quote (fuel + 1) kept
    need 1
    if (← look 0) = quote then
      skip
      return kept.reverse
    let g ← gap 0 (fuel + 1) { broken := joined }
    quotedFrom quote fuel (g.folded.reverse ++ kept)

def quoted (quote : Char) (fuel : Nat) : Scan (List Char) := do
  skip
  quotedFrom quote fuel []

/-- What to do with the line ends after a block scalar. -/
inductive Chomping where
  | strip
  | clip
  | keep
  deriving DecidableEq

def chomping? (c : Char) : Option Chomping :=
  if c = '+' then some .keep else if c = '-' then some .strip else none

/-- How to end a block scalar, if the next character tells. -/
def chompingMark : Scan (Option Chomping) := do
  need 1
  match chomping? (← look 0) with
  | none => return none
  | some x => skip; return some x

/-- How much deeper than the margin a block scalar is, if the next character tells. -/
def depthMark : Scan (Option Nat) := do
  need 1
  let c ← look 0
  if c.isDigit then
    ensure (c ≠ '0')
    skip
    return some (c.toNat - 48)
  return none

/-- The two marks behind the sign of a block scalar, in either order. -/
def blockMarks : Scan (Chomping × Option Nat) := do
  match ← chompingMark with
  | some x => return (x, ← depthMark)
  | none =>
    match ← depthMark with
    | none => return (.clip, none)
    | some n => return ((← chompingMark).getD .clip, some n)

/-- The rest of the line with the sign of a block scalar. -/
def blockHeaderEnd (fuel : Nat) : Scan Unit := do
  need 1
  skipWhile isBlank fuel
  if (← look 0) = '#' then
    skipLineComment fuel
    skipWhile (fun c => !isBreakOrEnd c) fuel
  let c ← look 0
  ensure (isBreakOrEnd c)
  if isBreak c then
    need 2
    skipLine

/-- Skips indentation up to column `indent`, or all of it if that is not known yet. -/
def blockIndent (indent : Option Nat) (fuel : Nat) : Scan Unit := do
  match fuel with
  | 0 => return
  | fuel + 1 =>
    let p ← here
    if p.get 0 = ' ' && indent.all (p.column < ·) then
      skip
      need 1
      blockIndent indent fuel

/-- Reads empty lines and the indentation of the line after them. Gives back the line ends and the
widest column that the indentation came to. -/
def blockBreaks (indent : Option Nat) (fuel : Nat) (breaks : List Char) (widest : Nat) :
    Scan (List Char × Nat) := do
  match fuel with
  | 0 => return (breaks, widest)
  | fuel + 1 =>
    need 1
    blockIndent indent (fuel + 1)
    let p ← here
    let widest := max widest p.column
    ensure (!(p.get 0 = '\t' && indent.all (p.column < ·)))
    if isBreak (p.get 0) then
      need 2
      let lineEnd ← readLine
      blockBreaks indent fuel (breaks ++ lineEnd) widest
    else return (breaks, widest)

/-- The lines of a block scalar on their way. -/
structure BlockText where
  /-- The content so far, in reverse. -/
  content : List Char := []
  /-- The end of the last line. -/
  lineEnd : List Char := []
  /-- The ends of the empty lines after that. -/
  breaks : List Char := []
  /-- Whether the last line began with a blank. -/
  spaced : Bool := false

/-- What goes between the last line and one that begins with a blank or not: folded lines are
joined by a space unless one of them is set off by blanks. -/
def BlockText.between (folded blank : Bool) (b : BlockText) : List Char :=
  (if folded && !b.spaced && !blank && b.lineEnd.head? = some '\n' then
    if b.breaks = [] then [' '] else []
  else b.lineEnd) ++ b.breaks

/-- The lines of a block scalar at column `indent`. -/
def blockLines (folded : Bool) (indent fuel : Nat) (b : BlockText) : Scan BlockText := do
  match fuel with
  | 0 => return b
  | fuel + 1 =>
    let p ← here
    if p.column = indent && p.get 0 ≠ endMark then
      let blank := isBlank (p.get 0)
      let line ← readWhile (fun c => !isBreakOrEnd c) (fuel + 1) []
      need 2
      let lineEnd ← readLine
      let (breaks, _) ← blockBreaks (some indent) (fuel + 1) [] 0
      blockLines folded indent fuel
        { content := line.reverse ++ (b.between folded blank).reverse ++ b.content
          lineEnd := lineEnd, breaks := breaks, spaced := blank }
    else return b

/-- A block scalar, from its sign on. -/
def block (folded : Bool) (margin fuel : Nat) : Scan (List Char) := do
  skip
  let (chomping, depth) ← blockMarks
  blockHeaderEnd fuel
  let told := depth.map (margin - 1 + ·)
  let (breaks, widest) ← blockBreaks told fuel [] 0
  let indent := told.getD (max (max widest margin) 1)
  need 1
  let b ← blockLines folded indent fuel { breaks := breaks }
  let tail := match chomping with
    | .strip => []
    | .clip => b.lineEnd
    | .keep => b.lineEnd ++ b.breaks
  return b.content.reverse ++ tail

end Scan

end TinyLisp.Document

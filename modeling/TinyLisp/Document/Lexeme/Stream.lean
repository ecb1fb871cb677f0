import TinyLisp.Document.Lexeme.Scalar

/-!
The lexemes of a document, one after the other.

A key is known as one only when the colon behind it is met. Until then its first lexeme is a
`Candidate`, and the stream keeps it back, so that the mark for a key can still be put before it.
Each flow collection has a candidate of its own, and so has what surrounds all of them.
-/

namespace TinyLisp.Document

/-- A lexeme that may turn out to start a key. -/
structure Candidate where
  possible : Bool := false
  /-- Whether nothing but a key may stand there. -/
  required : Bool := false
  /-- The number of the lexeme in the stream. -/
  number : Nat := 0
  index : Nat := 0
  line : Nat := 0
  column : Nat := 0

structure Stream where
  cursor : Cursor
  started : Bool := false
  /-- The lexemes that were read and not taken. -/
  queue : List Lexeme := []
  /-- How many lexemes were taken. -/
  taken : Nat := 0
  /-- The candidate of the innermost flow collection. -/
  candidate : Candidate := {}
  /-- The candidates around it, the outermost first. -/
  outer : Array Candidate := #[]
  /-- The lexemes that candidates keep back, by number, with the depth of the candidate. -/
  kept : List (Nat × Nat) := []
  /-- Whether a key may start here. -/
  keyAllowed : Bool := true
  /-- The column from which on content belongs to the innermost block; zero outside of all. -/
  margin : Nat := 0
  /-- The margins of the blocks around it. -/
  margins : List Nat := []
  /-- No document has more characters than this. -/
  bound : Nat

/-- An action on a stream. -/
abbrev Fetch := StateT Stream Option

namespace Stream

def ofText (t : Text) : Stream := { cursor := .ofText t, bound := t.length + 16 }

/-- How many flow collections are open. -/
def depth (s : Stream) : Nat := s.outer.size

def inFlow (s : Stream) : Bool := !s.outer.isEmpty

/-- The number of the lexeme that is read next. -/
def nextNumber (s : Stream) : Nat := s.taken + s.queue.length

/-- Puts a lexeme before the one with the given number, or at the end if that was taken. -/
def insertAt (s : Stream) (number : Nat) (x : Lexeme) : Stream :=
  let n := if number < s.taken then s.queue.length else number - s.taken
  { s with queue := s.queue.take n ++ x :: s.queue.drop n }

def push (s : Stream) (x : Lexeme) : Stream := { s with queue := s.queue ++ [x] }

/-- The candidate at a depth. -/
def candidateAt? (s : Stream) (depth : Nat) : Option Candidate :=
  if depth = s.depth then some s.candidate else s.outer[depth]?

/-- Gives up the candidate at a depth. -/
def giveUp (s : Stream) (depth : Nat) : Stream :=
  if depth = s.depth then { s with candidate := { s.candidate with possible := false } }
  else { s with outer := s.outer.modify depth ({ · with possible := false }) }

/-- The limit on open collections. -/
def maxDepth : Nat := 10000

end Stream

namespace Fetch

/-- Runs an action on the cursor of a stream. -/
def scan {α : Type} (f : Scan α) : Fetch α := fun s =>
  (f s.cursor).map fun r => (r.1, { s with cursor := r.2 })

def ensure (b : Bool) : Fetch Unit := if b then pure () else failure

def push (line : Nat) (kind : Lexeme.Kind) : Fetch Unit := modify (·.push ⟨line, kind⟩)

/-- Whether a candidate at a depth may still be a key. One that is too far back is given up, which
is a fault if it was required. -/
def isAlive (depth : Nat) : Fetch Bool := do
  let s ← get
  match s.candidateAt? depth with
  | none => failure
  | some k =>
    if !k.possible then return false
    else if k.line < s.cursor.line || k.index + 1024 < s.cursor.index then
      ensure (!k.required)
      set (s.giveUp depth)
      return false
    else return true

/-- Drops the candidate here; one that is required cannot be dropped. -/
def dropCandidate : Fetch Unit := do
  let s ← get
  if s.candidate.possible then
    ensure (!s.candidate.required)
    set { s with
      candidate := { s.candidate with possible := false }
      kept := s.kept.filter (·.1 ≠ s.candidate.number) }

/-- Makes the next lexeme a candidate if a key may start here. -/
def saveCandidate : Fetch Unit := do
  let s ← get
  let p := s.cursor
  if s.keyAllowed then
    dropCandidate
    modify fun t => { t with
      candidate :=
        { possible := true, required := !s.inFlow && s.margin = p.column + 1
          number := s.nextNumber, index := p.index, line := p.line, column := p.column }
      kept := (s.nextNumber, s.depth) :: t.kept.filter (·.1 ≠ s.nextNumber) }

def allowKey (b : Bool) : Fetch Unit := modify ({ · with keyAllowed := b })

/-- Opens a flow collection. -/
def enterFlow : Fetch Unit := do
  modify fun s => { s with
    candidate := { number := s.nextNumber }, outer := s.outer.push s.candidate }
  ensure ((← get).depth ≤ Stream.maxDepth)

/-- Closes a flow collection, if one is open. -/
def leaveFlow : Fetch Unit := modify fun s =>
  match s.outer.back? with
  | none => s
  | some k =>
    { s with
      candidate := k, outer := s.outer.pop, kept := s.kept.filter (·.1 ≠ s.candidate.number) }

/-- Opens a block at a column, unless it is open. Its mark goes before the lexeme with the given
number. -/
def openBlock (column number line : Nat) (kind : Lexeme.Kind) : Fetch Unit := do
  let s ← get
  if !s.inFlow && s.margin ≤ column then
    ensure (s.margins.length < Stream.maxDepth)
    set ({ s with margin := column + 1, margins := s.margin :: s.margins }.insertAt number
      ⟨line, kind⟩)

/-- Closes blocks down to a margin. -/
def closeBlocks (fuel margin : Nat) : Fetch Unit := do
  match fuel with
  | 0 => return
  | fuel + 1 =>
    let s ← get
    if !s.inFlow && margin < s.margin then
      set ({ s with margin := s.margins.headD 0, margins := s.margins.drop 1 }.push
        ⟨s.cursor.line, .blockEnd⟩)
      closeBlocks fuel margin

/-- Closes all blocks. No key may start behind what follows. -/
def reset : Fetch Unit := do
  closeBlocks (Stream.maxDepth + 1) 0
  dropCandidate
  allowKey false

/-- Adds a lexeme of `n` characters. -/
def mark (n : Nat) (kind : Lexeme.Kind) : Fetch Unit := do
  let line := (← get).cursor.line
  scan (.skipMany n)
  push line kind

/-- Adds the lexeme that an action reads. -/
def markRead (f : Scan Lexeme.Kind) : Fetch Unit := do
  let line := (← get).cursor.line
  push line (← scan f)

/-- The end of the stream starts a line of its own. -/
def streamEnd : Fetch Unit := do
  modify fun s => if s.cursor.column = 0 then s else
    { s with cursor := { s.cursor with column := 0, line := s.cursor.line + 1 } }
  reset
  mark 0 .streamEnd

def directive : Fetch Unit := do
  reset
  markRead (.directive (← get).bound)

def documentMark (kind : Lexeme.Kind) : Fetch Unit := do
  reset
  mark 3 kind

def flowStart (kind : Lexeme.Kind) : Fetch Unit := do
  saveCandidate
  enterFlow
  allowKey true
  mark 1 kind

def flowEnd (kind : Lexeme.Kind) : Fetch Unit := do
  dropCandidate
  leaveFlow
  allowKey false
  mark 1 kind

def comma : Fetch Unit := do
  dropCandidate
  allowKey true
  mark 1 .comma

/-- Opens a block where a mark stands that begins one. -/
def openHere (kind : Lexeme.Kind) : Fetch Unit := do
  let s ← get
  ensure (s.inFlow || s.keyAllowed)
  openBlock s.cursor.column s.nextNumber s.cursor.line kind

def item : Fetch Unit := do
  openHere .sequenceStart
  dropCandidate
  allowKey true
  mark 1 .item

def key : Fetch Unit := do
  openHere .mappingStart
  dropCandidate
  allowKey (!(← get).inFlow)
  mark 1 .key

/-- A colon makes the candidate a key. Without one it belongs to a key that was marked. -/
def value : Fetch Unit := do
  if ← isAlive (← get).depth then
    let k := (← get).candidate
    modify (·.insertAt k.number ⟨k.line, .key⟩)
    openBlock k.column k.number k.line .mappingStart
    modify fun s => { s with
      candidate := { k with possible := false }, kept := s.kept.filter (·.1 ≠ k.number) }
    allowKey false
  else
    openHere .mappingStart
    allowKey (!(← get).inFlow)
  mark 1 .value

/-- A lexeme that may start a key. -/
def starter (f : Scan Lexeme.Kind) : Fetch Unit := do
  saveCandidate
  allowKey false
  markRead f

def plainScalar : Fetch Unit := do
  saveCandidate
  allowKey false
  let s ← get
  let (content, broken) ← scan (.plain s.inFlow s.margin s.bound [] {})
  push s.cursor.line (.scalar .plain content)
  if broken then allowKey true

def blockScalar (folded : Bool) : Fetch Unit := do
  dropCandidate
  allowKey true
  let s ← get
  markRead do return .scalar .block (← .block folded s.margin s.bound)

/-- The characters that no plain scalar starts with. -/
def startMarks : List Char := "-?:,[]\x7b\x7d#&*!|>'\"%@`".toList

/-- Whether a plain scalar can start with these two characters. -/
def startsPlain (flow : Bool) (c d : Char) : Bool :=
  !isBlankOrEnd c && !startMarks.contains c || c = '-' && !isBlank d
    || !flow && (c = '?' || c = ':') && !isBlankOrEnd d

/-- Reads the lexeme that starts with the given characters. -/
def content (c d : Char) : Fetch Unit := do
  let s ← get
  let flow := s.inFlow
  if c = '[' then flowStart .flowSequenceStart
  else if c = '\x7b' then flowStart .flowMappingStart
  else if c = ']' then flowEnd .flowSequenceEnd
  else if c = '\x7d' then flowEnd .flowMappingEnd
  else if c = ',' then comma
  else if c = '-' && isBlankOrEnd d then item
  else if c = '?' && (flow || isBlankOrEnd d) then key
  else if c = ':' && (flow || isBlankOrEnd d) then value
  else if c = '*' then starter do return .reference (← .name s.bound)
  else if c = '&' then starter do return .anchor (← .name s.bound)
  else if c = '!' then starter (.tag s.bound)
  else if c = '|' && !flow then blockScalar false
  else if c = '>' && !flow then blockScalar true
  else if c = '"' || c = Scan.apostrophe then
    starter do return .scalar .quoted (← .quoted c s.bound)
  else if startsPlain flow c d then plainScalar
  else failure

/-- Skips blanks, line ends and comments. A tab is no indentation: where a key may start it is not
skipped outside of flow collections. A byte order mark may start a line. -/
def skipToNext (fuel : Nat) : Fetch Unit := do
  match fuel with
  | 0 => return
  | fuel + 1 =>
    scan (.need 1)
    let p := (← get).cursor
    if p.column = 0 && p.first = byteOrderMark then scan .skip
    scan (.need 1)
    let s ← get
    let tabs := s.inFlow || !s.keyAllowed
    scan (.skipWhile (fun c => c = ' ' || tabs && c = '\t') s.bound)
    if (← get).cursor.get 0 = '#' then scan (.skipComments s.bound 0)
    if isBreak ((← get).cursor.get 0) then
      scan (.need 2)
      scan .skipLine
      if !s.inFlow then allowKey true
      skipToNext fuel

/-- Reads one more lexeme, with the marks that go before it. A comment may follow in its line,
though not behind the dash of an item. -/
def next : Fetch Unit := do
  scan (.need 1)
  if !(← get).started then
    modify ({ · with started := true })
    mark 0 .streamStart
    return
  skipToNext (← get).bound
  closeBlocks (Stream.maxDepth + 1) ((← get).cursor.column + 1)
  scan (.need 4)
  let p := (← get).cursor
  let c := p.get 0
  if c = endMark then streamEnd
  else if p.column = 0 && c = '%' then directive
  else if p.atMarker then documentMark (if c = '-' then .documentStart else .documentEnd)
  else
    content c (p.get 1)
    let s ← get
    if (s.queue.getLast?.map Lexeme.kind) ≠ some .item then scan (.skipLineComment s.bound)

/-- Reads lexemes until there are three, of which the first is not kept back. -/
def more (fuel : Nat) : Fetch Unit := do
  match fuel with
  | 0 => failure
  | fuel + 1 =>
    let s ← get
    let waiting ←
      if s.queue.length < 3 then pure true
      else match s.kept.lookup s.taken with
        | none => pure false
        | some depth => isAlive depth
    if waiting then
      next
      more fuel

/-- The next lexeme, which is not taken yet. -/
def peek : Fetch Lexeme := do
  more (4 * (← get).bound)
  match (← get).queue with
  | [] => failure
  | x :: _ => return x

/-- Takes the next lexeme, which nobody can keep back from then on. -/
def take : Fetch Unit := modify fun s => { s with
  queue := s.queue.drop 1, taken := s.taken + 1, kept := s.kept.filter (s.taken < ·.1) }

end Fetch

end TinyLisp.Document

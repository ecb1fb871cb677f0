import TinyLisp.Document.Lexeme.Stream
import TinyLisp.Document.Meaning

/-!
The tree that the lexemes of a document make up. Only the first document of a stream is read, and
what follows it only as far as it takes to tell that it has ended.
-/

namespace TinyLisp.Document

/-- What is known while a document is read. -/
structure Reading where
  stream : Stream
  /-- The names of anchors with the numbers of their parts, the last one first. -/
  anchors : List (List Char × Nat) := []
  /-- The parts that have an anchor and are complete. -/
  anchored : List (Nat × Part) := []
  /-- How many parts were met. -/
  count : Nat := 0
  /-- The handles of tags and what they stand for. -/
  handles : List (Text × Text) := []

/-- An action that reads parts of a document. -/
abbrev Parse := StateT Reading Option

namespace Parse

def fetch {α : Type} (f : Fetch α) : Parse α := fun r =>
  (f r.stream).map fun x => (x.1, { r with stream := x.2 })

def peek : Parse Lexeme := fetch .peek

def take : Parse Unit := fetch .take

def ensure (b : Bool) : Parse Unit := if b then pure () else failure

/-- The number of a new part. -/
def number : Parse Nat := modifyGet fun r => (r.count, { r with count := r.count + 1 })

/-- The anchor and the tag before a part, and the line where it starts. -/
structure Properties where
  line : Nat
  anchor : Option (List Char) := none
  /-- The tag in full; empty if there is none. -/
  tag : Text := []

/-- A tag in full, from its handle and suffix. -/
def fullTag (handle suffix : Text) : Parse Text := do
  if handle = [] then return suffix
  match (← get).handles.lookup handle with
  | none => failure
  | some start =>
    ensure (!(start ++ suffix).isEmpty)
    return start ++ suffix

/-- An anchor and a tag, in either order, of which any may be left out. -/
def properties : Parse Properties := do
  let x ← peek
  match x.kind with
  | .anchor name =>
    take
    match (← peek).kind with
    | .tag handle suffix =>
      take
      let _ ← peek
      return { line := x.line, anchor := some name, tag := ← fullTag handle suffix }
    | _ => return { line := x.line, anchor := some name }
  | .tag handle suffix =>
    take
    match (← peek).kind with
    | .anchor name =>
      take
      let _ ← peek
      return { line := x.line, anchor := some name, tag := ← fullTag handle suffix }
    | _ => return { line := x.line, tag := ← fullTag handle suffix }
  | _ => return { line := x.line }

/-- Numbers a part, and lets its anchor lead to it from here on. -/
def start (ps : Properties) (default : Text) : Parse Label := do
  let n ← number
  match ps.anchor with
  | none => pure ()
  | some name => modify fun r => { r with anchors := (name, n) :: r.anchors }
  return { number := n, line := ps.line, tag := Tag.orDefault ps.tag default }

/-- Keeps a complete part for the references to it. -/
def finish (ps : Properties) (p : Part) : Parse Part := do
  if ps.anchor.isSome then
    modify fun r => { r with anchored := (p.label.number, p) :: r.anchored }
  return p

/-- The tag of a scalar that has none: what is set off is text, and the rest tells by its content
what it stands for. -/
def scalarTag (style : ScalarStyle) (content : List Char) : Text :=
  if style ≠ .plain then Tag.str
  else if content = "<<".toList then Tag.merge
  else (meaning true content).tag

def scalar (ps : Properties) (style : ScalarStyle) (content : List Char) : Parse Part := do
  let label ← start ps (scalarTag style content)
  finish ps (.scalar label content)

/-- A part that is left out. -/
def absent (line : Nat) : Parse Part := scalar { line := line } .plain []

def reference (line : Nat) (name : List Char) : Parse Part := do
  match (← get).anchors.lookup name with
  | none => failure
  | some target => return .reference { number := ← number, line := line, tag := [] } name target

/-- A part of which there is nothing but an anchor or a tag. -/
def omitted (ps : Properties) : Parse Part := do
  ensure (ps.anchor.isSome || ps.tag ≠ [])
  scalar ps .plain []

mutual

/-- A part of a document. Only in a block there may be blocks without brackets, and only a value of
a block mapping (`isValue`) may be a sequence that is not indented. -/
def part (fuel : Nat) (inBlock isValue : Bool) : Parse Part :=
  match fuel with
  | 0 => failure
  | fuel + 1 => do
    let x ← peek
    match x.kind with
    | .reference name =>
      take
      reference x.line name
    | _ =>
      let ps ← properties
      match (← peek).kind with
      | .scalar style content =>
        take
        scalar ps style content
      | .flowSequenceStart =>
        let label ← start ps Tag.seq
        take
        finish ps (.sequence label (← flowItems fuel true []))
      | .flowMappingStart =>
        let label ← start ps Tag.map
        take
        finish ps (.mapping label (← flowEntries fuel true []))
      | .item =>
        if isValue then do
          let label ← start ps Tag.seq
          finish ps (.sequence label (← items fuel false []))
        else omitted ps
      | .sequenceStart =>
        if inBlock then do
          let label ← start ps Tag.seq
          take
          finish ps (.sequence label (← items fuel true []))
        else omitted ps
      | .mappingStart =>
        if inBlock then do
          let label ← start ps Tag.map
          take
          finish ps (.mapping label (← entries fuel []))
        else omitted ps
      | _ => omitted ps
termination_by structural fuel

/-- The items of a flow sequence up to its end. A comma stands before all but the first. -/
def flowItems (fuel : Nat) (first : Bool) (done : List Part) : Parse (List Part) :=
  match fuel with
  | 0 => failure
  | fuel + 1 => do
    if (← peek).kind = .flowSequenceEnd then
      take
      return done.reverse
    if !first then
      ensure ((← peek).kind = .comma)
      take
    let x ← peek
    if x.kind = .flowSequenceEnd then
      take
      return done.reverse
    let item ←
      if x.kind = .key then do
        let label ← start { line := x.line } Tag.map
        take
        pure (Part.mapping label [← pair fuel])
      else part fuel false false
    flowItems fuel false (item :: done)
termination_by structural fuel

/-- An entry that is an item of a flow sequence, behind the mark for its key. What ends the item
before there is a key is taken with it. -/
def pair (fuel : Nat) : Parse (Part × Part) :=
  match fuel with
  | 0 => failure
  | fuel + 1 => do
    let x ← peek
    let k ←
      if x.kind = .value ∨ x.kind = .comma ∨ x.kind = .flowSequenceEnd then do
        take
        absent x.line
      else part fuel false false
    return (k, ← flowValue fuel .flowSequenceEnd)
termination_by structural fuel

/-- The value in a flow collection that `close` ends; it may be left out. -/
def flowValue (fuel : Nat) (close : Lexeme.Kind) : Parse Part :=
  match fuel with
  | 0 => failure
  | fuel + 1 => do
    let x ← peek
    if x.kind = .value then
      take
      let y ← peek
      if y.kind = .comma ∨ y.kind = close then absent y.line else part fuel false false
    else absent x.line
termination_by structural fuel

/-- The entries of a flow mapping up to its end. A comma stands before all but the first. -/
def flowEntries (fuel : Nat) (first : Bool) (done : List (Part × Part)) :
    Parse (List (Part × Part)) :=
  match fuel with
  | 0 => failure
  | fuel + 1 => do
    if (← peek).kind = .flowMappingEnd then
      take
      return done.reverse
    if !first then
      ensure ((← peek).kind = .comma)
      take
    let x ← peek
    if x.kind = .flowMappingEnd then
      take
      return done.reverse
    if x.kind = .key then
      take
      let y ← peek
      let k ←
        if y.kind = .value ∨ y.kind = .comma ∨ y.kind = .flowMappingEnd then absent y.line
        else part fuel false false
      let v ← flowValue fuel .flowMappingEnd
      flowEntries fuel false ((k, v) :: done)
    else
      let k ← part fuel false false
      let v ← absent (← peek).line
      flowEntries fuel false ((k, v) :: done)
termination_by structural fuel

/-- The items of a block sequence. One that is indented has an end of its own; else it ends where
no dash follows. -/
def items (fuel : Nat) (indented : Bool) (done : List Part) : Parse (List Part) :=
  match fuel with
  | 0 => failure
  | fuel + 1 => do
    let x ← peek
    if x.kind = .item then
      take
      let y ← peek
      let none := y.kind = .item ∨ y.kind = .blockEnd
        ∨ !indented ∧ (y.kind = .key ∨ y.kind = .value)
      let p ← if none then absent x.line else part fuel true false
      items fuel indented (p :: done)
    else
      if indented then
        ensure (x.kind = .blockEnd)
        take
      return done.reverse
termination_by structural fuel

/-- The entries of a block mapping up to its end. -/
def entries (fuel : Nat) (done : List (Part × Part)) : Parse (List (Part × Part)) :=
  match fuel with
  | 0 => failure
  | fuel + 1 => do
    let x ← peek
    if x.kind = .blockEnd then
      take
      return done.reverse
    ensure (x.kind = .key)
    take
    let k ← blockPart fuel x.line
    let y ← peek
    let v ←
      if y.kind = .value then do
        take
        blockPart fuel y.line
      else absent y.line
    entries fuel ((k, v) :: done)
termination_by structural fuel

/-- A key or value of a block mapping; it may be left out. -/
def blockPart (fuel : Nat) (line : Nat) : Parse Part :=
  match fuel with
  | 0 => failure
  | fuel + 1 => do
    let x ← peek
    if x.kind = .key ∨ x.kind = .value ∨ x.kind = .blockEnd then absent line
    else part fuel true true
termination_by structural fuel

end

/-- The handles that every document knows. -/
def commonHandles : List (Text × Text) := [("!", "!"), ("!!", Tag.common)]

/-- The directives before a document. There is one version of the notation, which may be told once,
and no handle may be told twice. -/
def directives (fuel : Nat) (versioned : Bool) : Parse Unit := do
  match fuel with
  | 0 => failure
  | fuel + 1 =>
    match (← peek).kind with
    | .version major minor =>
      ensure (!versioned && major = 1 && minor = 1)
      take
      directives fuel true
    | .shorthand handle start =>
      ensure ((← get).handles.lookup handle).isNone
      modify fun r => { r with handles := r.handles ++ [(handle, start)] }
      take
      directives fuel versioned
    | _ => modify fun r => { r with handles := r.handles ++ commonHandles }

/-- Whether a lexeme ends a document that has no content. -/
def endsDocument (k : Lexeme.Kind) : Bool :=
  match k with
  | .version .. | .shorthand .. | .documentStart | .documentEnd | .streamEnd => true
  | _ => false

/-- The tree of the first document, if the stream has one. -/
def root (fuel : Nat) : Parse (Option Part) := do
  let _ ← peek
  take
  let x ← peek
  if x.kind = .streamEnd then return none
  let isExplicit := endsDocument x.kind && x.kind ≠ .documentEnd
  directives fuel false
  if isExplicit then
    ensure ((← peek).kind = .documentStart)
    take
  let y ← peek
  let p ← if isExplicit && endsDocument y.kind then absent y.line else part fuel true false
  let _ ← peek
  return some p

end Parse

/-- The first document that a text holds. -/
def read? (t : Text) : Option Document :=
  match (Parse.root (16 * t.length + 64)).run { stream := .ofText t } with
  | none => none
  | some (root, r) => some { root := root, anchored := r.anchored, size := r.count }

end TinyLisp.Document

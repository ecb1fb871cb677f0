import TinyLisp.Document.Meaning
import TinyLisp.Document.Misfit
import TinyLisp.Duration
import TinyLisp.Text.Base64

/-!
The parts of a document as values of a wanted type. A part that stands for nothing gives no value;
one that does not fit gives none either and is noted, so that all of them can be told at once.
-/

namespace TinyLisp.Document

/-- What is kept track of while a document is decoded. -/
structure Progress where
  /-- How many parts were visited. -/
  visited : Nat := 0
  /-- How many of them were reached through a reference. -/
  referred : Nat := 0
  /-- What did not fit, the last one first. -/
  misfits : List Misfit := []

/-- An action that decodes parts of a document. It fails where no sense can be made of them. -/
abbrev Decode := StateT Progress Option

namespace Progress

/-- Whether too many parts were reached through references. Up to 99 in 100 may be in documents of
ordinary size, and fewer the larger they are. -/
def isExcessive (p : Progress) : Bool :=
  100 < p.referred && 1000 < p.visited &&
    if p.visited ≤ 400000 then 99 * p.visited < 100 * p.referred
    else if 4000000 ≤ p.visited then p.visited < 10 * p.referred
    else (99 * 3600000 - 89 * (p.visited - 400000)) * p.visited < 360000000 * p.referred

end Progress

namespace Decode

def note (m : Misfit) : Decode Unit := modify fun p => { p with misfits := m :: p.misfits }

/-- Counts a visit to a part. `path` holds the references that led there. -/
def visit (path : List Nat) : Decode Unit := do
  modify fun p => { p with
    visited := p.visited + 1
    referred := if path.isEmpty then p.referred else p.referred + 1 }
  if (← get).isExcessive then failure

/-- Visits a part, and follows it if it is a reference. A reference must not lead to itself. -/
def follow (d : Document) (path : List Nat) (p : Part) : Decode (List Nat × Part) := do
  visit path
  match p with
  | .reference label _ target =>
    if path.contains label.number then failure
    match d.find? target with
    | none => failure
    | some q =>
      visit (label.number :: path)
      return (label.number :: path, q)
  | p => return (path, p)

end Decode

/-- The value of a scalar. -/
inductive Datum where
  | null
  | bool (b : Bool)
  | int (i : Int)
  | float (f : Float)
  | timestamp
  | text (t : Text)

/-- The tags of which the content of a scalar has to be an example. -/
def checkedTags : List Text := [Tag.bool, Tag.int, Tag.float, Tag.null, Tag.timestamp]

/-- The value of content that has a meaning. -/
def Meaning.datum (content : List Char) : Meaning → Datum
  | .null => .null
  | .bool b => .bool b
  | .int i => .int i
  | .float f => .float f
  | .timestamp => .timestamp
  | .text => .text (Text.ofChars content)

/-- The value of a scalar with a tag, if it has one. An integer of 63 bits may stand for a fraction
too. A tag of an unknown kind leaves the content as it is. -/
def datum? (tag : Text) (content : List Char) : Option Datum :=
  if checkedTags.contains tag then
    match meaning (tag = Tag.timestamp) content with
    | .int i =>
      if tag = Tag.int then some (.int i)
      else if tag = Tag.float ∧ i < 9223372036854775808 then
        some (.float (let f := Float.ofScientific i.natAbs false 0; if i < 0 then -f else f))
      else none
    | m => if m.tag = tag then some (m.datum content) else none
  else if tag = Tag.binary then (Text.Base64.decode? (Text.ofChars content)).map .text
  else some (.text (Text.ofChars content))

namespace Datum

/-- Every scalar is a text, as it was written. Only bytes in base 64 are read. -/
def text? (p : Part) : Datum → Option Text
  | .text t => some t
  | _ => some p.content

/-- Only text spells a duration: a bare number has no unit. -/
def duration? : Datum → Option Duration
  | .text t => Duration.parse? t
  | _ => none

/-- The whole part of a number, if it is not above the range. What does not fit below it, and two
to the 63rd, give the least number. -/
def wholePart? (f : Float) : Option Int64 :=
  if f < 9223372036854775808 then some f.toInt64
  else if f == 9223372036854775808 then some Int64.minValue
  else none

/-- Integers in range, and other numbers without their fraction. -/
def int64? : Datum → Option Int64
  | .int i => if i ≤ 9223372036854775807 then some (Int64.ofInt i) else none
  | .float f => wholePart? f
  | _ => none

/-- Truth values, and a few more words for them. -/
def bool? : Datum → Option Bool
  | .bool b => some b
  | .text t =>
    if t.isOneOf ["y", "Y", "yes", "Yes", "YES", "on", "On", "ON"] then some true
    else if t.isOneOf ["n", "N", "no", "No", "NO", "off", "Off", "OFF"] then some false
    else none
  | _ => none

end Datum

/-- Every later entry with the key of an earlier one. -/
def repeats : List (Part × Part) → List Misfit
  | [] => []
  | (key, _) :: entries =>
    (entries.filter fun e => key.sameKey e.1).map
        (fun e => .repeatedKey e.1.line e.1.content key.line)
      ++ repeats entries

namespace Decode

/-- Notes that a part is not of the wanted type. -/
def refuse (p : Part) (wanted : String) : Decode Unit :=
  note (.wrongType p.line p.tag p.content wanted)

/-- Notes the keys of a mapping that are repeated, and tells whether there are none. -/
def unrepeated (entries : List (Part × Part)) : Decode Bool := do
  let ms := repeats entries
  modify fun p => { p with misfits := ms.reverse ++ p.misfits }
  return ms.isEmpty

/-- A value of the wanted type, read off the value of a scalar. -/
def scalarAs {α : Type} (d : Document) (path : List Nat) (p : Part) (wanted : String)
    (f : Part → Datum → Option α) : Decode (Option α) := do
  let (_, p) ← follow d path p
  match p with
  | .scalar label content =>
    match datum? label.tag content with
    | none => failure
    | some .null => return none
    | some v =>
      match f p v with
      | some a => return some a
      | none =>
        refuse p wanted
        return none
  | .mapping _ entries =>
    if ← unrepeated entries then refuse p wanted
    return none
  | p =>
    refuse p wanted
    return none

def text (d : Document) (path : List Nat) (p : Part) : Decode (Option Text) :=
  scalarAs d path p "string" Datum.text?

def duration (d : Document) (path : List Nat) (p : Part) : Decode (Option Duration) :=
  scalarAs d path p "time.Duration" fun _ => Datum.duration?

def int64 (d : Document) (path : List Nat) (p : Part) : Decode (Option Int64) :=
  scalarAs d path p "int64" fun _ => Datum.int64?

def bool (d : Document) (path : List Nat) (p : Part) : Decode (Option Bool) :=
  scalarAs d path p "bool" fun _ => Datum.bool?

/-- Whether a key stands for the entries of another mapping. -/
def isMerge : Part → Bool
  | .scalar label content => content = "<<".toList && label.tag = Tag.merge
  | _ => false

/-- What a part is if nothing in particular is wanted. -/
inductive Shape where
  | text (t : Text)
  | collection
  | other

def Shape.ofDatum : Datum → Shape
  | .text t => .text t
  | _ => .other

/-- The mappings whose entries a part stands for as the value of a merge key: itself, or those in a
sequence. -/
def mergedParts? (d : Document) (p : Part) : Option (List Part) :=
  let leadsToMapping : Part → Bool
    | .reference _ _ target => (d.find? target).any Part.isMapping
    | q => q.isMapping
  match p with
  | .sequence _ items => if items.all leadsToMapping then some items else none
  | q => if leadsToMapping q then some [q] else none

mutual

/-- Decodes a part of any shape; there is none if keys are repeated. -/
def shape (fuel : Nat) (d : Document) (path : List Nat) (p : Part) : Decode (Option Shape) :=
  match fuel with
  | 0 => failure
  | fuel + 1 => do
    let (path, p) ← follow d path p
    match p with
    | .scalar label content =>
      match datum? label.tag content with
      | none => failure
      | some v => return some (Shape.ofDatum v)
    | .sequence _ items =>
      shapes fuel d path items
      return some .collection
    | .mapping _ entries =>
      if ← unrepeated entries then
        shapeEntries fuel d path entries
        return some .collection
      else return none
    | .reference .. => failure
termination_by structural fuel

def shapes (fuel : Nat) (d : Document) (path : List Nat) (ps : List Part) : Decode Unit :=
  match fuel, ps with
  | 0, _ => failure
  | _, [] => pure ()
  | fuel + 1, p :: ps => do
    let _ ← shape fuel d path p
    shapes fuel d path ps
termination_by structural fuel

/-- Decodes the entries of a mapping of any shape. No key may be a collection. -/
def shapeEntries (fuel : Nat) (d : Document) (path : List Nat) (entries : List (Part × Part)) :
    Decode Unit :=
  match fuel, entries with
  | 0, _ => failure
  | _, [] => pure ()
  | fuel + 1, (k, v) :: entries => do
    if isMerge k then
      match mergedParts? d v with
      | none => failure
      | some ps => shapes fuel d path ps
    else
      match ← shape fuel d path k with
      | none => pure ()
      | some .collection => failure
      | some _ => let _ ← shape fuel d path v
    shapeEntries fuel d path entries
termination_by structural fuel

end

/-- The names that the keys of a mapping give. Other keys give none, but no key may be a
collection. -/
def keyNames (fuel : Nat) (d : Document) (path : List Nat) : List (Part × Part) → Decode (List Text)
  | [] => pure []
  | (k, _) :: entries => do
    match ← shape fuel d path k with
    | some .collection => failure
    | some (.text t) => return t :: (← keyNames fuel d path entries)
    | _ => keyNames fuel d path entries

end Decode

end TinyLisp.Document

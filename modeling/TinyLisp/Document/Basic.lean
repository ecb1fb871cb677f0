import TinyLisp.Text.Basic

/-!
The tree of a document in the notation of settings files: scalars, sequences and mappings, and
references from one place of the tree to another.
-/

namespace TinyLisp

namespace Document

/-- What all parts of a document have. -/
structure Label where
  /-- The number of the part; no other has the same. -/
  number : Nat
  /-- The line where the part starts. -/
  line : Nat
  /-- The tag that tells what the part stands for. -/
  tag : Text
  deriving DecidableEq, Repr

/-- A part of a document. -/
inductive Part where
  | scalar (label : Label) (content : List Char)
  | sequence (label : Label) (items : List Part)
  | mapping (label : Label) (entries : List (Part × Part))
  /-- A reference to the part with the number `target`, by the name of its anchor. -/
  | reference (label : Label) (name : List Char) (target : Nat)

namespace Part

def label : Part → Label
  | .scalar l _ | .sequence l _ | .mapping l _ | .reference l .. => l

def line (p : Part) : Nat := p.label.line

def tag (p : Part) : Text := p.label.tag

/-- Whether two keys of a mapping are the same: scalars by their content, references by the name,
others by their kind. -/
def sameKey : Part → Part → Bool
  | .scalar _ a, .scalar _ b => a = b
  | .sequence .., .sequence .. => true
  | .mapping .., .mapping .. => true
  | .reference _ a _, .reference _ b _ => a = b
  | _, _ => false

/-- The text of a scalar, or the name that a reference goes by. -/
def content : Part → Text
  | .scalar _ cs | .reference _ cs _ => Text.ofChars cs
  | .sequence .. | .mapping .. => []

def isMapping : Part → Bool
  | .mapping .. => true
  | _ => false

end Part

end Document

/-- A document: its tree, if it has one, and the parts of the tree that references lead to. -/
structure Document where
  root : Option Document.Part
  anchored : List (Nat × Document.Part)
  /-- The number of parts. -/
  size : Nat

/-- The part that a reference leads to. -/
def Document.find? (d : Document) (target : Nat) : Option Document.Part := d.anchored.lookup target

end TinyLisp

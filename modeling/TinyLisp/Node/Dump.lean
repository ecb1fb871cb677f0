import TinyLisp.Node.Basic
import TinyLisp.Text.Decimal

/-!
The verbose form of a tree: every constructor and every field by name, over as many lines as the
tree needs.

A constructor whose fields are all zero or missing is written on one line without them. Fields
that follow each other line by line are aligned; a field that takes several lines ends such a
block. Past ten levels a node is not shown any more, and an item of a sequence counts for two.
-/

namespace TinyLisp

/-- The deepest level that is still written out. -/
def dumpLimit : Nat := 10

/-- What stands for a node below the limit. -/
def dumpCut : String := "!%v(DEPTH EXCEEDED)"

/-- The lines moved one level in. -/
def indentLines (lines : List String) : List String := lines.map ("    " ++ ·)

/-- The lines with a comma after the last one. -/
def withComma : List String → List String
  | [] => []
  | [line] => [line ++ ","]
  | line :: lines => line :: withComma lines

/-- A named field: its label and the lines of its value. -/
structure Field where
  label : String
  value : List String

def Field.isOneLine (f : Field) : Bool := f.value.length ≤ 1

/-- The longest label among the fields up to and including the first that takes several lines. -/
def blockWidth : List Field → Nat
  | [] => 0
  | f :: fs => if f.isOneLine then max f.label.length (blockWidth fs) else f.label.length

/-- The field with its value one column past the `width` of its block. -/
def Field.lines (width : Nat) (f : Field) : List String :=
  let pad := "".pushn ' ' (width + 1 - f.label.length)
  match f.value with
  | [] => [f.label]
  | first :: others => withComma ((f.label ++ pad ++ first) :: others)

/-- The lines of all fields. `block` is the width of the block that is open, if one is. -/
def fieldLines (block : Option Nat) : List Field → List String
  | [] => []
  | f :: fs =>
    let width := block.getD (blockWidth (f :: fs))
    f.lines width ++ fieldLines (if f.isOneLine then some width else none) fs

/-- A constructor with its fields; without fields to show it stays on one line. -/
def constructorLines (name : String) (fields : List Field) : List String :=
  if fields.isEmpty then ["&ast." ++ name ++ "\x7b\x7d"]
  else ("&ast." ++ name ++ "\x7b") :: indentLines (fieldLines none fields) ++ ["\x7d"]

/-- An operator code in hexadecimal. -/
def hexCode (code : UInt8) : String :=
  "0x" ++ String.ofList (Nat.toDigits 16 code.toNat)

namespace Node

def isNil : Node → Bool
  | .nil => true
  | _ => false

/-- A literal on one line, with its value unless that is zero or false. -/
def literalLine (name : String) (value : Option String) : List String :=
  match value with
  | some v => ["&ast." ++ name ++ "\x7bValue:" ++ v ++ "\x7d"]
  | none => ["&ast." ++ name ++ "\x7b\x7d"]

mutual

/-- The lines of a node that stands at the given level. -/
def dumpLines (level : Nat) : Node → List String
  | .nil => ["nil"]
  | .number v =>
    if level < dumpLimit then
      literalLine "Number" (if v = 0 then none else some (String.ofList (decimal v.toInt)))
    else ["&" ++ dumpCut]
  | .boolean b =>
    if level < dumpLimit then literalLine "Boolean" (if b then some "true" else none)
    else ["&" ++ dumpCut]
  | .binary op l r =>
    if level < dumpLimit then
      constructorLines "BinaryOp" <|
        if op.code = 0 ∧ l.isNil ∧ r.isNil then []
        else [⟨"Op:", [hexCode op.code]⟩, ⟨"Left:", l.dumpLines (level + 1)⟩,
          ⟨"Right:", r.dumpLines (level + 1)⟩]
    else ["&" ++ dumpCut]
  | .conditional c y n =>
    if level < dumpLimit then
      constructorLines "Conditional" <|
        if c.isNil ∧ y.isNil ∧ n.isNil then []
        else [⟨"Cond:", c.dumpLines (level + 1)⟩, ⟨"Then:", y.dumpLines (level + 1)⟩,
          ⟨"Else:", n.dumpLines (level + 1)⟩]
    else ["&" ++ dumpCut]
  | .sequence items =>
    if level < dumpLimit then
      constructorLines "Sequence"
        [⟨"Items:", "\x7b" :: indentLines (dumpItems (level + 1) items) ++ ["\x7d"]⟩]
    else ["&" ++ dumpCut]

/-- The lines of the items of a sequence, each item ending in a comma. -/
def dumpItems (level : Nat) : List Node → List String
  | [] => []
  | n :: ns =>
    withComma (if n.isNil ∨ level < dumpLimit then n.dumpLines (level + 1) else [dumpCut]) ++
      dumpItems level ns

end

/-- The verbose form, without a line end after the last line. -/
def dump (n : Node) : Text :=
  Text.ofString ("\n".intercalate (n.dumpLines 0))

end Node

end TinyLisp

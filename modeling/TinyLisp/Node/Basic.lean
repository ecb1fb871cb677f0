import TinyLisp.Text.Basic

/-!
Expression trees.

Trees built by hand may miss a subtree or hold an operator that means nothing; `Node.WellFormed`
singles out those that do neither.
-/

namespace TinyLisp

/-- A binary operator. Codes without a meaning can occur in trees built by hand. -/
inductive Operator where
  | add
  | subtract
  | unknown (code : UInt8)
  deriving DecidableEq, Repr

namespace Operator

def ofCode (code : UInt8) : Operator :=
  if code = 1 then .add else if code = 2 then .subtract else .unknown code

def code : Operator → UInt8
  | .add => 1
  | .subtract => 2
  | .unknown code => code

/-- How the operator is written in an expression; an unknown one has no spelling. -/
def symbol : Operator → String
  | .add => "+"
  | .subtract => "-"
  | .unknown _ => ""

/-- How diagnostics name the operator. -/
def name : Operator → String
  | .add => "plus"
  | .subtract => "minus"
  | .unknown _ => ""

/-- The operator written as the given text. -/
def ofSymbol? (t : Text) : Option Operator :=
  if t = Text.ofString "+" then some .add
  else if t = Text.ofString "-" then some .subtract
  else none

def isKnown : Operator → Bool
  | .unknown _ => false
  | _ => true

end Operator

/-- An expression; `nil` marks a subtree that is missing. -/
inductive Node where
  | nil
  | number (value : Int32)
  | boolean (value : Bool)
  | binary (op : Operator) (left right : Node)
  | conditional (cond yes no : Node)
  | sequence (items : List Node)
  deriving Inhabited

/-- The shapes of nodes that are there. -/
inductive NodeKind where
  | number
  | boolean
  | binary
  | conditional
  | sequence
  deriving DecidableEq, Repr

def NodeKind.name : NodeKind → String
  | .number => "number"
  | .boolean => "boolean"
  | .binary => "binary_op"
  | .conditional => "conditional"
  | .sequence => "sequence"

def NodeKind.ofCode? : UInt8 → Option NodeKind
  | 1 => some .number
  | 2 => some .boolean
  | 3 => some .binary
  | 4 => some .conditional
  | 5 => some .sequence
  | _ => none

namespace Node

def kind? : Node → Option NodeKind
  | .nil => none
  | .number _ => some .number
  | .boolean _ => some .boolean
  | .binary .. => some .binary
  | .conditional .. => some .conditional
  | .sequence _ => some .sequence

/-- The subtrees right below a node, from left to right. -/
def children : Node → List Node
  | .binary _ l r => [l, r]
  | .conditional c y z => [c, y, z]
  | .sequence ns => ns
  | _ => []

mutual

/-- No subtree is missing and every operator has a meaning. -/
def WellFormed : Node → Prop
  | .nil => False
  | .number _ | .boolean _ => True
  | .binary op l r => op.isKnown ∧ l.WellFormed ∧ r.WellFormed
  | .conditional c y n => c.WellFormed ∧ y.WellFormed ∧ n.WellFormed
  | .sequence items => AllWellFormed items

/-- Every item of a sequence is well formed. -/
def AllWellFormed : List Node → Prop
  | [] => True
  | n :: ns => n.WellFormed ∧ AllWellFormed ns

end

/-- A tree that is written in parentheses. -/
def IsForm : Node → Prop
  | .binary .. | .conditional .. | .sequence _ => True
  | _ => False

end Node

end TinyLisp

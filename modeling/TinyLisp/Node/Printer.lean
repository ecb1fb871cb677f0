import TinyLisp.Node.Basic
import TinyLisp.Text.Decimal

/-!
Two ways to write a tree: `Node.encode` on one line, as an expression that reads back, and
`Node.outline` with one line for each node.
-/

namespace TinyLisp

/-- A truth value as a literal. -/
def spellBool (b : Bool) : List Char :=
  if b then "true".toList else "false".toList

namespace Node

mutual

/-- The tree as an expression. A missing subtree is written `:nil`. -/
def spell : Node → List Char
  | .nil => ":nil".toList
  | .number v => decimal v.toInt
  | .boolean b => spellBool b
  | .binary op l r => '(' :: op.symbol.toList ++ ' ' :: l.spell ++ ' ' :: r.spell ++ [')']
  | .conditional c y n =>
    '(' :: "if".toList ++ ' ' :: c.spell ++ ' ' :: y.spell ++ ' ' :: n.spell ++ [')']
  | .sequence items => '(' :: spellItems items ++ [')']

/-- The items of a sequence with a space between neighbours. -/
def spellItems : List Node → List Char
  | [] => []
  | [n] => n.spell
  | n :: m :: ns => n.spell ++ ' ' :: spellItems (m :: ns)

end

def encode (n : Node) : Text := Text.ofChars n.spell

/-- The line of a node: its kind, and the literal, operator or number of items. -/
def header : Node → List Char
  | .nil => ":nil".toList
  | .number v => "(number): ".toList ++ decimal v.toInt
  | .boolean b => "(boolean): ".toList ++ spellBool b
  | .binary op _ _ => "(binary_op): ".toList ++ op.symbol.toList
  | .conditional .. => "(conditional): if".toList
  | .sequence items => "(sequence)[".toList ++ Nat.toDigits 10 items.length ++ [']']

/-- Four spaces for each level; the line of a missing subtree is not indented. -/
def indent (level : Nat) : Node → List Char
  | .nil => []
  | _ => List.replicate (4 * level) ' '

mutual

/-- One line for each node, a parent before its children, indented by depth. -/
def outlineLines (level : Nat) : Node → List (List Char)
  | .binary op l r =>
    (indent level (.binary op l r) ++ header (.binary op l r)) ::
      l.outlineLines (level + 1) ++ r.outlineLines (level + 1)
  | .conditional c y n =>
    (indent level (.conditional c y n) ++ header (.conditional c y n)) ::
      c.outlineLines (level + 1) ++ y.outlineLines (level + 1) ++ n.outlineLines (level + 1)
  | .sequence items =>
    (indent level (.sequence items) ++ header (.sequence items)) :: outlineItems (level + 1) items
  | n => [indent level n ++ header n]

/-- The lines of the items of a sequence. -/
def outlineItems (level : Nat) : List Node → List (List Char)
  | [] => []
  | n :: ns => n.outlineLines level ++ outlineItems level ns

end

def outline (n : Node) : Text :=
  Text.ofChars ((n.outlineLines 0).flatMap (· ++ ['\n']))

end Node

end TinyLisp

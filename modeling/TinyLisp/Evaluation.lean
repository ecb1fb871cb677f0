import TinyLisp.Node.Parser
import TinyLisp.Value

/-!
Evaluation of trees and of expressions.

Operands are evaluated from left to right and branches only when chosen. Numbers wrap around at 32
bits. A sequence is true, and its items are not looked at.
-/

namespace TinyLisp

/-- A well-formed tree that makes no sense: the fault of whoever wrote the expression. -/
inductive TypeFault where
  | operands (op : Operator) (left right : Value)
  | condition (value : Value)
  deriving DecidableEq, Repr

def TypeFault.message : TypeFault → Text
  | .operands op l r =>
    "invalid operand types for " ++ op.name ++ ": " ++ l.describe ++ ", " ++ r.describe
  | .condition v => "invalid if condition type: " ++ v.describe

/-- Why a tree has no value. The last two arise from trees built by hand only. -/
inductive EvalFault where
  | types (fault : TypeFault)
  | nilNode
  | unknownOperator (code : UInt8)
  deriving DecidableEq, Repr

def EvalFault.message : EvalFault → Text
  | .types f => f.message
  | .nilNode => "cannot evaluate a nil node"
  | .unknownOperator code => "unreachable: unknown operator " ++ Text.decimal code.toNat

/-- The operator applied to two values. -/
def Operator.apply (op : Operator) (left right : Value) : Except EvalFault Value :=
  match left, right with
  | .number a, .number b =>
    match op with
    | .add => .ok (.number (a + b))
    | .subtract => .ok (.number (a - b))
    | .unknown code => .error (.unknownOperator code)
  | _, _ => .error (.types (.operands op left right))

/-- The value of a tree. -/
def Node.eval : Node → Except EvalFault Value
  | .nil => .error .nilNode
  | .number v => .ok (.number v)
  | .boolean b => .ok (.boolean b)
  | .binary op l r => do
    let left ← l.eval
    let right ← r.eval
    op.apply left right
  | .conditional c y n => do
    match ← c.eval with
    | .boolean true => y.eval
    | .boolean false => n.eval
    | v => .error (.types (.condition v))
  | .sequence _ => .ok (.boolean true)

/-- Why an expression has no value. -/
inductive Fault where
  | parse (fault : ParseFault)
  | eval (fault : EvalFault)
  deriving DecidableEq, Repr

def Fault.message : Fault → Text
  | .parse f => f.message
  | .eval f => f.message

/-- The value of an expression. -/
def Text.eval (t : Text) : Except Fault Value :=
  match t.parse with
  | .error e => .error (.parse e)
  | .ok n =>
    match n.eval with
    | .error e => .error (.eval e)
    | .ok v => .ok v

/-- The value of an expression as a literal. -/
def Text.run (t : Text) : Except Fault Text := t.eval.map Value.render

end TinyLisp

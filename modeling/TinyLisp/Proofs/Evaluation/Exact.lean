import TinyLisp.Evaluation

/-!
Evaluation with numbers of another type, such as integers of any size.

Numbers that wrap around are a picture of the integers that respects sums and differences, and
evaluation does nothing else with a number. So it does not matter whether numbers are wrapped at
every node of a tree or once at its root.
-/

namespace TinyLisp

/-- A value whose number is of the given type. -/
inductive ValueOver (α : Type) where
  | number (a : α)
  | boolean (b : Bool)
  deriving DecidableEq, Repr

/-- Why a tree has no value, where the numbers are of the given type. -/
inductive FaultOver (α : Type) where
  | operands (op : Operator) (left right : ValueOver α)
  | condition (value : ValueOver α)
  | nilNode
  | unknownOperator (code : UInt8)
  deriving DecidableEq, Repr

section Over

variable {α : Type} [Add α] [Sub α]

def Operator.applyOver (op : Operator) (left right : ValueOver α) :
    Except (FaultOver α) (ValueOver α) :=
  match left, right with
  | .number a, .number b =>
    match op with
    | .add => .ok (.number (a + b))
    | .subtract => .ok (.number (a - b))
    | .unknown code => .error (.unknownOperator code)
  | _, _ => .error (.operands op left right)

/-- The value of a tree by the rules of `Node.eval`, with `literal v` for the number `v`. -/
def Node.evalOver (literal : Int32 → α) : Node → Except (FaultOver α) (ValueOver α)
  | .nil => .error .nilNode
  | .number v => .ok (.number (literal v))
  | .boolean b => .ok (.boolean b)
  | .binary op l r => do
    let left ← l.evalOver literal
    let right ← r.evalOver literal
    op.applyOver left right
  | .conditional c y n => do
    match ← c.evalOver literal with
    | .boolean true => y.evalOver literal
    | .boolean false => n.evalOver literal
    | v => .error (.condition v)
  | .sequence _ => .ok (.boolean true)

/-- The value of a tree with integers of any size. -/
def Node.evalExact (n : Node) : Except (FaultOver Int) (ValueOver Int) := n.evalOver Int32.toInt

end Over

section Reduce

variable {α : Type}

def ValueOver.reduce (f : α → Int32) : ValueOver α → Value
  | .number a => .number (f a)
  | .boolean b => .boolean b

def FaultOver.reduce (f : α → Int32) : FaultOver α → EvalFault
  | .operands op l r => .types (.operands op (l.reduce f) (r.reduce f))
  | .condition v => .types (.condition (v.reduce f))
  | .nilNode => .nilNode
  | .unknownOperator code => .unknownOperator code

/-- The same outcome, with every number that it carries taken through `f`. -/
def reduceOutcome (f : α → Int32) : Except (FaultOver α) (ValueOver α) → Except EvalFault Value
  | .ok v => .ok (v.reduce f)
  | .error e => .error (e.reduce f)

variable {f : α → Int32} {x : Except (FaultOver α) (ValueOver α)}
  {next : ValueOver α → Except (FaultOver α) (ValueOver α)} {next' : Value → Except EvalFault Value}

theorem reduceOutcome_bind (h : ∀ v, next' (v.reduce f) = reduceOutcome f (next v)) :
    reduceOutcome f x >>= next' = reduceOutcome f (x >>= next) := by
  cases x with
  | ok v => exact h v
  | error e => rfl

/-- An outcome in which no number shows. -/
inductive IsNumberFree : Except (FaultOver α) (ValueOver α) → Prop
  | boolean (b : Bool) : IsNumberFree (.ok (.boolean b))
  | nilNode : IsNumberFree (.error .nilNode)
  | unknownOperator (code : UInt8) : IsNumberFree (.error (.unknownOperator code))

theorem IsNumberFree.reduceOutcome_eq_iff {y : Except (FaultOver α) (ValueOver α)}
    (hy : IsNumberFree y) : reduceOutcome f x = reduceOutcome f y ↔ x = y := by
  constructor
  · intro h
    rcases x with (_ | _ | _ | _) | (_ | _) <;> cases hy <;> cases h <;> rfl
  · rintro rfl
    rfl

end Reduce

section Homomorphism

variable {α : Type} [Add α] [Sub α] {f : α → Int32} {literal : Int32 → α}

theorem Operator.apply_reduce (hadd : ∀ a b, f (a + b) = f a + f b)
    (hsub : ∀ a b, f (a - b) = f a - f b) (op : Operator) (l r : ValueOver α) :
    op.apply (l.reduce f) (r.reduce f) = reduceOutcome f (op.applyOver l r) := by
  cases l with
  | boolean b => rfl
  | number a =>
    cases r with
    | boolean b => rfl
    | number b =>
      cases op with
      | add => exact congrArg (Except.ok ∘ Value.number) (hadd a b).symm
      | subtract => exact congrArg (Except.ok ∘ Value.number) (hsub a b).symm
      | unknown code => rfl

/-- A picture of numbers that respects sums, differences and literals carries evaluation over. -/
theorem Node.eval_eq_reduceOutcome (hadd : ∀ a b, f (a + b) = f a + f b)
    (hsub : ∀ a b, f (a - b) = f a - f b) (hlit : ∀ v, f (literal v) = v) (n : Node) :
    n.eval = reduceOutcome f (n.evalOver literal) := by
  induction n using Node.eval.induct with
  | case1 => rfl
  | case2 v => exact congrArg (Except.ok ∘ Value.number) (hlit v).symm
  | case3 b => rfl
  | case4 op l r ihl ihr =>
    rw [Node.eval, Node.evalOver, ihl, ihr]
    -- Both runs stop at the first fault, so they are compared operand by operand.
    apply reduceOutcome_bind
    intro left
    apply reduceOutcome_bind
    intro right
    exact op.apply_reduce hadd hsub left right
  | case5 c y n ihc ihy ihn =>
    rw [Node.eval, Node.evalOver, ihc, ihy, ihn]
    apply reduceOutcome_bind
    intro cond
    cases cond with
    | number a => rfl
    | boolean b =>
      cases b with
      | true => rfl
      | false => rfl
  | case6 ns => rfl

end Homomorphism

/-- Evaluation over wrapping numbers is evaluation, and so is evaluation over all integers whose
outcome is wrapped once at the end: values and faults are the same but for that, and nothing that
overflows on the way turns a condition or brings about another fault. -/
theorem Node.eval_wraps_exact_once (n : Node) :
    n.eval = reduceOutcome id (n.evalOver id) ∧
    n.eval = reduceOutcome Int32.ofInt n.evalExact ∧
    (∀ b, n.eval = .ok (.boolean b) ↔ n.evalExact = .ok (.boolean b)) ∧
    (n.eval = .error .nilNode ↔ n.evalExact = .error .nilNode) ∧
    (∀ code, n.eval = .error (.unknownOperator code) ↔
      n.evalExact = .error (.unknownOperator code)) := by
  have hsame : n.eval = reduceOutcome id (n.evalOver id) :=
    n.eval_eq_reduceOutcome (by simp) (by simp) (by simp)
  have hexact : n.eval = reduceOutcome Int32.ofInt n.evalExact :=
    n.eval_eq_reduceOutcome Int32.ofInt_add Int32.ofInt_sub Int32.ofInt_toInt
  refine ⟨hsame, hexact, ?_, ?_, ?_⟩
  · intro b
    rw [hexact]
    exact (IsNumberFree.boolean b).reduceOutcome_eq_iff
  · rw [hexact]
    exact IsNumberFree.nilNode.reduceOutcome_eq_iff
  · intro code
    rw [hexact]
    exact (IsNumberFree.unknownOperator code).reduceOutcome_eq_iff

end TinyLisp

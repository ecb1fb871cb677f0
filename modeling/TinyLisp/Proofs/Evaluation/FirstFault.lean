import TinyLisp.Evaluation

/-!
Which fault evaluation reports.

Evaluation comes to a subtree if all that it looks at before has the value it takes to get there.
These surroundings are an evaluation context. A tree without a value splits into such a context and
a subtree that is faulty by itself, and there is only one way to split it, so the fault reported is
the first one met.
-/

namespace TinyLisp

/-- One layer around a subtree that evaluation comes to. -/
inductive Frame where
  | left (op : Operator) (right : Node)
  | right (op : Operator) (left : Node) (hasValue : ∃ v, left.eval = .ok v)
  | cond (yes no : Node)
  | yes (cond no : Node) (isTrue : cond.eval = .ok (.boolean true))
  | no (cond yes : Node) (isFalse : cond.eval = .ok (.boolean false))

def Frame.fill : Frame → Node → Node
  | .left op r, n => .binary op n r
  | .right op l _, n => .binary op l n
  | .cond y z, n => .conditional n y z
  | .yes c z _, n => .conditional c n z
  | .no c y _, n => .conditional c y n

/-- All layers around a subtree that evaluation comes to, the outermost first. -/
abbrev EvalContext := List Frame

def EvalContext.fill (E : EvalContext) (n : Node) : Node := E.foldr Frame.fill n

/-- A tree with a fault that is not the fault of any subtree. -/
inductive Node.FaultsHere : Node → EvalFault → Prop
  | nil : FaultsHere .nil .nilNode
  | operands {op : Operator} {l r : Node} {a b : Value} (hl : l.eval = .ok a) (hr : r.eval = .ok b)
      (h : ¬(a.isNumber ∧ b.isNumber)) : FaultsHere (.binary op l r) (.types (.operands op a b))
  | operator {code : UInt8} {l r : Node} {a b : Int32} (hl : l.eval = .ok (.number a))
      (hr : r.eval = .ok (.number b)) :
      FaultsHere (.binary (.unknown code) l r) (.unknownOperator code)
  | condition {c y z : Node} {v : Value} (hc : c.eval = .ok v) (h : ¬v.isBoolean) :
      FaultsHere (.conditional c y z) (.types (.condition v))

section Fault

variable {op : Operator} {a b : Value} {e : EvalFault} {l n r : Node}

theorem Operator.apply_eq_error_of_not (h : ¬(a.isNumber ∧ b.isNumber)) :
    op.apply a b = .error (.types (.operands op a b)) := by
  cases a with
  | number a =>
    cases b with
    | number b => exact absurd ⟨rfl, rfl⟩ h
    | boolean b => rfl
    | invalid => rfl
  | boolean a => rfl
  | invalid => rfl

theorem Node.FaultsHere.eval_eq (h : n.FaultsHere e) : n.eval = .error e := by
  cases h with
  | nil => rfl
  | operands hl hr h =>
    rw [Node.eval, hl, hr]
    exact Operator.apply_eq_error_of_not h
  | operator hl hr =>
    rw [Node.eval, hl, hr]
    rfl
  | @condition c y z v hc h =>
    rw [Node.eval, hc]
    cases v with
    | boolean b => exact absurd rfl h
    | number a => rfl
    | invalid => rfl

theorem Node.faultsHere_binary (hl : l.eval = .ok a) (hr : r.eval = .ok b)
    (h : op.apply a b = .error e) : (Node.binary op l r).FaultsHere e := by
  by_cases hn : a.isNumber ∧ b.isNumber
  · match a, b, hn with
    | .number a, .number b, _ =>
      cases op with
      | add => cases h
      | subtract => cases h
      | unknown code =>
        cases h
        exact .operator hl hr
  · rw [Operator.apply_eq_error_of_not hn] at h
    cases h
    exact .operands hl hr hn

end Fault

section Frame

variable {e : EvalFault} {n : Node}

theorem Frame.eval_fill (f : Frame) (h : n.eval = .error e) : (f.fill n).eval = .error e := by
  cases f with
  | left op r =>
    rw [Frame.fill, Node.eval, h]
    rfl
  | right op l hl =>
    obtain ⟨v, hv⟩ := hl
    rw [Frame.fill, Node.eval, hv, h]
    rfl
  | cond y z =>
    rw [Frame.fill, Node.eval, h]
    rfl
  | yes c z hc =>
    rw [Frame.fill, Node.eval, hc]
    exact h
  | no c y hc =>
    rw [Frame.fill, Node.eval, hc]
    exact h

theorem Frame.sizeOf_lt_fill (f : Frame) (n : Node) : sizeOf n < sizeOf (f.fill n) := by
  cases f <;> simp only [Frame.fill, Node.binary.sizeOf_spec, Node.conditional.sizeOf_spec] <;> omega

/-- A fault is the tree's own or that of the subtree evaluation stops at. -/
theorem Node.faultsHere_or_inner (h : n.eval = .error e) :
    n.FaultsHere e ∨ ∃ (f : Frame) (m : Node), f.fill m = n ∧ m.eval = .error e := by
  cases n with
  | nil =>
    cases h
    exact .inl .nil
  | number a => cases h
  | boolean b => cases h
  | binary op l r =>
    rw [Node.eval] at h
    cases hl : l.eval with
    | error e' =>
      rw [hl] at h
      exact .inr ⟨.left op r, l, rfl, hl.trans h⟩
    | ok a =>
      rw [hl] at h
      cases hr : r.eval with
      | error e' =>
        rw [hr] at h
        exact .inr ⟨.right op l ⟨a, hl⟩, r, rfl, hr.trans h⟩
      | ok b =>
        rw [hr] at h
        exact .inl (Node.faultsHere_binary hl hr h)
  | conditional c y z =>
    rw [Node.eval] at h
    cases hc : c.eval with
    | error e' =>
      rw [hc] at h
      exact .inr ⟨.cond y z, c, rfl, hc.trans h⟩
    | ok v =>
      rw [hc] at h
      match v with
      | .boolean true => exact .inr ⟨.yes c z hc, y, rfl, h⟩
      | .boolean false => exact .inr ⟨.no c y hc, z, rfl, h⟩
      | .number a =>
        cases h
        exact .inl (.condition hc nofun)
      | .invalid =>
        cases h
        exact .inl (.condition hc nofun)
  | sequence ns => cases h

/-- The subtree that a tree has its fault from, and the layer around it. There is none in a tree
that has a value or is faulty by itself. -/
def Node.focus? : Node → Option (Frame × Node)
  | .binary op l r =>
    match hl : l.eval, r.eval with
    | .error _, _ => some (.left op r, l)
    | .ok v, .error _ => some (.right op l ⟨v, hl⟩, r)
    | .ok _, .ok _ => none
  | .conditional c y z =>
    match hc : c.eval, y.eval, z.eval with
    | .error _, _, _ => some (.cond y z, c)
    | .ok (.boolean true), .error _, _ => some (.yes c z hc, y)
    | .ok (.boolean false), _, .error _ => some (.no c y hc, z)
    | _, _, _ => none
  | _ => none

theorem Frame.focus?_fill (f : Frame) (h : n.eval = .error e) :
    (f.fill n).focus? = some (f, n) := by
  -- A layer is told by which of the subtrees before the hole have a value, and which value.
  cases f
  all_goals
    rw [Frame.fill, Node.focus?]
    split <;> grind

theorem Node.FaultsHere.focus?_eq (h : n.FaultsHere e) : n.focus? = none := by
  cases h with
  | nil => rfl
  | operands hl hr =>
    rw [Node.focus?]
    split <;> grind
  | operator hl hr =>
    rw [Node.focus?]
    split <;> grind
  | condition hc h =>
    rw [Node.focus?]
    split <;> grind [Value.isBoolean]

end Frame

section Context

variable {e e' : EvalFault} {n r r' : Node} {E E' : EvalContext}

theorem EvalContext.eval_fill (E : EvalContext) (h : n.eval = .error e) :
    (E.fill n).eval = .error e := by
  induction E with
  | nil => exact h
  | cons f E ih => exact f.eval_fill ih

theorem Node.exists_faultsHere {n : Node} (h : n.eval = .error e) :
    ∃ (E : EvalContext) (r : Node), E.fill r = n ∧ r.FaultsHere e := by
  rcases Node.faultsHere_or_inner h with hn | ⟨f, m, hfill, hm⟩
  · exact ⟨[], n, rfl, hn⟩
  · obtain ⟨E, r, rfl, hr⟩ := exists_faultsHere hm
    exact ⟨f :: E, r, hfill, hr⟩
termination_by n
decreasing_by exact hfill ▸ f.sizeOf_lt_fill m

theorem EvalContext.focus?_fill_cons (f : Frame) (E : EvalContext) (h : r.FaultsHere e) :
    (EvalContext.fill (f :: E) r).focus? = some (f, E.fill r) :=
  f.focus?_fill (E.eval_fill h.eval_eq)

theorem EvalContext.fill_inj (hr : r.FaultsHere e) (hr' : r'.FaultsHere e')
    (h : E.fill r = E'.fill r') : E = E' ∧ r = r' := by
  -- The focus of a tree settles its outermost layer.
  have hfocus := congrArg Node.focus? h
  induction E generalizing E' with
  | nil =>
    cases E' with
    | nil => exact ⟨rfl, h⟩
    | cons f' E' =>
      rw [EvalContext.focus?_fill_cons f' E' hr'] at hfocus
      exact absurd (hr.focus?_eq.symm.trans hfocus) nofun
  | cons f E ih =>
    rw [EvalContext.focus?_fill_cons f E hr] at hfocus
    cases E' with
    | nil => exact absurd (hfocus.trans hr'.focus?_eq) nofun
    | cons f' E' =>
      rw [EvalContext.focus?_fill_cons f' E' hr'] at hfocus
      obtain ⟨rfl, hfill⟩ := Prod.mk.inj (Option.some.inj hfocus)
      obtain ⟨rfl, rfl⟩ := ih hfill (congrArg Node.focus? hfill)
      exact ⟨rfl, rfl⟩

/-- A tree ends in a fault exactly if it is an evaluation context around a subtree with that fault
of its own, and there is no other such context, subtree or fault. -/
theorem Node.eval_reports_first_fault (n : Node) :
    (∀ e, n.eval = .error e ↔ ∃ (E : EvalContext) (r : Node), E.fill r = n ∧ r.FaultsHere e) ∧
    ∀ (E E' : EvalContext) (r r' : Node) (e e' : EvalFault), E.fill r = n → r.FaultsHere e →
      E'.fill r' = n → r'.FaultsHere e' → E = E' ∧ r = r' ∧ e = e' := by
  refine ⟨fun e => ⟨Node.exists_faultsHere, ?_⟩, ?_⟩
  · rintro ⟨E, r, rfl, hr⟩
    exact E.eval_fill hr.eval_eq
  · intro E E' r r' e e' h hr h' hr'
    obtain ⟨rfl, rfl⟩ := EvalContext.fill_inj hr hr' (h.trans h'.symm)
    have he := hr.eval_eq
    rw [hr'.eval_eq] at he
    cases he
    exact ⟨rfl, rfl, rfl⟩

/-- A sum with an unknown operator comes before the two subtrees that are missing, and what is
shown of it are the types of its operands. -/
theorem Node.eval_reports_unknown_operator_types :
    let r : Node := .binary (.unknown 7) (.sequence [.nil]) (.number 1)
    let n : Node := .binary .add (.conditional (.boolean true) r .nil) .nil
    let e : EvalFault := .types (.operands (.unknown 7) (.boolean true) (.number 1))
    n.eval = .error e ∧ ∀ (E : EvalContext) (r' : Node) (e' : EvalFault), E.fill r' = n →
      r'.FaultsHere e' → E = [.left .add .nil, .yes (.boolean true) .nil rfl] ∧ r' = r ∧ e' = e := by
  intro r n e
  have hr : r.FaultsHere e := .operands rfl rfl nofun
  obtain ⟨hiff, hunique⟩ := Node.eval_reports_first_fault n
  refine ⟨(hiff e).mpr ⟨[.left .add .nil, .yes (.boolean true) .nil rfl], r, rfl, hr⟩, ?_⟩
  intro E r' e' h hr'
  exact hunique _ _ _ _ _ _ h hr' rfl hr

end Context

end TinyLisp

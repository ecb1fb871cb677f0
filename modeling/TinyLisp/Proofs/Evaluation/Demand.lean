import TinyLisp.Evaluation

/-!
What evaluation looks at.

The root of a tree is demanded, and below a demanded node those children that its evaluation goes
on with. What stands elsewhere, and what items a sequence has, makes no difference to the outcome.
Nor does it make a difference to what is demanded, so changes of this kind add up.
-/

namespace TinyLisp

namespace Node

/-- The numbers of the children that are evaluated when the node is. -/
def demands : Node → List Nat
  | .binary _ l _ =>
    match l.eval with
    | .ok _ => [0, 1]
    | .error _ => [0]
  | .conditional c _ _ =>
    match c.eval with
    | .ok (.boolean true) => [0, 1]
    | .ok (.boolean false) => [0, 2]
    | _ => [0]
  | _ => []

end Node

/-- A way down from the root: at each node the number of the child to go on with. -/
abbrev Position := List Nat

/-- The subtree `n` stands at a demanded position of `t`. -/
inductive Node.DemandedAt (t : Node) : Position → Node → Prop
  | root : DemandedAt t [] t
  | step {p : Position} {i : Nat} {n m : Node} (h : DemandedAt t p n) (hi : i ∈ n.demands)
      (hm : n.children[i]? = some m) : DemandedAt t (p ++ [i]) m

def Node.Demanded (t : Node) (p : Position) : Prop := ∃ n, t.DemandedAt p n

/-- The subtree `n` at a position of `t` becomes `n'` when any trees are put in the place of some
that are not demanded. As no item of a sequence is demanded, those there are may change, go, and be
joined by others: a sequence may come to have any items. -/
inductive Node.EditedAt (t : Node) : Position → Node → Node → Prop
  | keep {p : Position} {n : Node} : EditedAt t p n n
  | replace {p : Position} {n n' : Node} (h : ¬t.Demanded p) : EditedAt t p n n'
  | binary {p : Position} {op : Operator} {l l' r r' : Node} (hl : EditedAt t (p ++ [0]) l l')
      (hr : EditedAt t (p ++ [1]) r r') : EditedAt t p (.binary op l r) (.binary op l' r')
  | conditional {p : Position} {c c' y y' z z' : Node} (hc : EditedAt t (p ++ [0]) c c')
      (hy : EditedAt t (p ++ [1]) y y') (hz : EditedAt t (p ++ [2]) z z') :
      EditedAt t p (.conditional c y z) (.conditional c' y' z')
  | sequence {p : Position} {ns ns' : List Node} : EditedAt t p (.sequence ns) (.sequence ns')

def Node.Edited (t t' : Node) : Prop := t.EditedAt [] t t'

namespace Node

section Demands

variable {op : Operator} {v : Value} {c l m n r t y z : Node} {p : Position} {i : Nat}

theorem zero_mem_demands_binary : 0 ∈ (Node.binary op l r).demands := by
  rw [demands]
  split <;> simp

theorem zero_mem_demands_conditional : 0 ∈ (Node.conditional c y z).demands := by
  rw [demands]
  split <;> simp

theorem lt_length_children (h : i ∈ n.demands) : i < n.children.length := by
  cases n with
  | binary op l r =>
    rw [demands] at h
    split at h <;> simp only [List.mem_cons, List.not_mem_nil, or_false] at h <;>
      simp only [children, List.length_cons, List.length_nil] <;> omega
  | conditional c y z =>
    rw [demands] at h
    split at h <;> simp only [List.mem_cons, List.not_mem_nil, or_false] at h <;>
      simp only [children, List.length_cons, List.length_nil] <;> omega
  | nil | number | boolean | sequence => cases h

theorem exists_child_of_mem_demands (h : i ∈ n.demands) : ∃ m, n.children[i]? = some m :=
  ⟨_, List.getElem?_eq_getElem (lt_length_children h)⟩

namespace DemandedAt

theorem left (h : t.DemandedAt p (.binary op l r)) : t.DemandedAt (p ++ [0]) l :=
  h.step zero_mem_demands_binary rfl

theorem right (h : t.DemandedAt p (.binary op l r)) (hl : l.eval = .ok v) :
    t.DemandedAt (p ++ [1]) r := by
  apply h.step _ rfl
  rw [demands, hl]
  simp

theorem cond (h : t.DemandedAt p (.conditional c y z)) : t.DemandedAt (p ++ [0]) c :=
  h.step zero_mem_demands_conditional rfl

theorem yes (h : t.DemandedAt p (.conditional c y z)) (hc : c.eval = .ok (.boolean true)) :
    t.DemandedAt (p ++ [1]) y := by
  apply h.step _ rfl
  rw [demands, hc]
  simp

theorem no (h : t.DemandedAt p (.conditional c y z)) (hc : c.eval = .ok (.boolean false)) :
    t.DemandedAt (p ++ [2]) z := by
  apply h.step _ rfl
  rw [demands, hc]
  simp

theorem eq_root (h : t.DemandedAt [] n) : n = t := by
  generalize hq : ([] : Position) = q at h
  cases h with
  | root => rfl
  | step => simp at hq

theorem exists_parent (h : t.DemandedAt (p ++ [i]) m) :
    ∃ n, t.DemandedAt p n ∧ i ∈ n.demands ∧ n.children[i]? = some m := by
  generalize hq : p ++ [i] = q at h
  cases h with
  | root => simp at hq
  | step h hi hm =>
    obtain ⟨rfl, he⟩ := List.append_inj' hq rfl
    cases he
    exact ⟨_, h, hi, hm⟩

theorem unique (h : t.DemandedAt p n) (h' : t.DemandedAt p m) : n = m := by
  induction h generalizing m with
  | root => exact h'.eq_root.symm
  | step h hi hm ih =>
    obtain ⟨k, hk, -, hm'⟩ := h'.exists_parent
    cases ih hk
    exact Option.some.inj (hm.symm.trans hm')

theorem not_demanded_child (h : t.DemandedAt p n) (hi : i ∉ n.demands) :
    ¬t.Demanded (p ++ [i]) := by
  rintro ⟨m, hm⟩
  obtain ⟨k, hk, hik, -⟩ := hm.exists_parent
  cases h.unique hk
  exact hi hik

end DemandedAt

end Demands

section Edit

variable {t t' n n' m m' : Node} {p : Position} {i : Nat}

theorem EditedAt.eval_eq (h : t.EditedAt p n n') (hp : t.DemandedAt p n) : n'.eval = n.eval := by
  induction h with
  | keep => rfl
  | replace h => exact absurd ⟨_, hp⟩ h
  | @binary p op l l' r r' hl hr ihl ihr =>
    rw [Node.eval, Node.eval, ihl hp.left]
    cases hv : l.eval with
    | error e => rfl
    | ok v => rw [ihr (hp.right hv)]
  | @conditional p c c' y y' z z' hc hy hz ihc ihy ihz =>
    rw [Node.eval, Node.eval, ihc hp.cond]
    cases hv : c.eval with
    | error e => rfl
    | ok v =>
      match v with
      | .boolean true => exact ihy (hp.yes hv)
      | .boolean false => exact ihz (hp.no hv)
      | .number a => rfl
      | .invalid => rfl
  | sequence => rfl

theorem EditedAt.demands_eq (h : t.EditedAt p n n') (hp : t.DemandedAt p n) :
    n'.demands = n.demands := by
  cases h with
  | keep => rfl
  | replace h => exact absurd ⟨_, hp⟩ h
  | binary hl hr => rw [demands, demands, hl.eval_eq hp.left]
  | conditional hc hy hz => rw [demands, demands, hc.eval_eq hp.cond]
  | sequence => rfl

theorem EditedAt.child (h : t.EditedAt p n n') (hp : t.DemandedAt p n) (hi : i ∈ n.demands)
    (hm : n.children[i]? = some m) (hm' : n'.children[i]? = some m') :
    t.EditedAt (p ++ [i]) m m' := by
  cases h with
  | keep =>
    obtain rfl := Option.some.inj (hm.symm.trans hm')
    exact .keep
  | replace h => exact absurd ⟨_, hp⟩ h
  | binary hl hr =>
    match i, hm, hm' with
    | 0, rfl, rfl => exact hl
    | 1, rfl, rfl => exact hr
  | conditional hc hy hz =>
    match i, hm, hm' with
    | 0, rfl, rfl => exact hc
    | 1, rfl, rfl => exact hy
    | 2, rfl, rfl => exact hz
  | sequence => cases hi

theorem Edited.demandedAt (h : t.Edited t') (hp : t.DemandedAt p n) :
    ∃ n', t'.DemandedAt p n' ∧ t.EditedAt p n n' := by
  induction hp with
  | root => exact ⟨t', .root, h⟩
  | step hp hi hm ih =>
    obtain ⟨n', hp', he⟩ := ih
    have hi' := he.demands_eq hp ▸ hi
    obtain ⟨m', hm'⟩ := exists_child_of_mem_demands hi'
    exact ⟨m', hp'.step hi' hm', he.child hp hi hm hm'⟩

theorem Edited.of_demandedAt (h : t.Edited t') (hp : t'.DemandedAt p n') :
    ∃ n, t.DemandedAt p n ∧ t.EditedAt p n n' := by
  induction hp with
  | root => exact ⟨t, .root, h⟩
  | step hp' hi' hm' ih =>
    obtain ⟨n, hp, he⟩ := ih
    have hi := (he.demands_eq hp).symm ▸ hi'
    obtain ⟨m, hm⟩ := exists_child_of_mem_demands hi
    exact ⟨m, hp.step hi hm, he.child hp hi hm hm'⟩

/-- Other subtrees where none is demanded, and other items in sequences, leave the outcome of a
tree as it is, and also what is demanded in it. -/
theorem eval_eq_of_edited (h : t.Edited t') :
    t'.eval = t.eval ∧ ∀ p, t'.Demanded p ↔ t.Demanded p := by
  refine ⟨h.eval_eq .root, fun p => ⟨?_, ?_⟩⟩
  · rintro ⟨n', hp'⟩
    obtain ⟨n, hp, -⟩ := h.of_demandedAt hp'
    exact ⟨n, hp⟩
  · rintro ⟨n, hp⟩
    obtain ⟨n', hp', -⟩ := h.demandedAt hp
    exact ⟨n', hp'⟩

/-- The branch not chosen, the items of the sequence in the other one, and the operand behind a
missing one can all be others. -/
theorem eval_eq_of_edited_in_three_places :
    let t : Node := .binary .add (.conditional (.boolean false) (.number 7) (.sequence [.number 1]))
      (.binary (.unknown 9) .nil (.number 0))
    let t' : Node := .binary .add (.conditional (.boolean false) .nil (.sequence []))
      (.binary (.unknown 9) .nil (.binary .add .nil .nil))
    t.Edited t' ∧ t'.eval = .error .nilNode ∧ t'.Demanded [0, 2] := by
  intro t t'
  have hroot : t.DemandedAt [] t := .root
  have hcond := hroot.left
  have hright := hroot.right (v := .boolean true) rfl
  have hyes : ¬t.Demanded [0, 1] := hcond.not_demanded_child (by decide)
  have hzero : ¬t.Demanded [1, 1] := hright.not_demanded_child (by decide)
  have h : t.Edited t' :=
    .binary (.conditional .keep (.replace hyes) .sequence) (.binary .keep (.replace hzero))
  obtain ⟨heval, hdemanded⟩ := eval_eq_of_edited h
  exact ⟨h, heval, (hdemanded _).mpr ⟨_, hcond.no rfl⟩⟩

end Edit

end Node

end TinyLisp

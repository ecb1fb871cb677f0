import Mathlib.Data.UInt
import TinyLisp.Service.Ledger

/-!
Ledgers as what they are looked up for: counts under keys.

The entries of a tally stand in the order of their keys, each key once. So adding to a count raises
that count and no other, and the order in which things are added leaves no trace.
-/

namespace TinyLisp

/-- The test is a total order of keys. -/
structure IsOrder {κ : Type} (before : κ → κ → Bool) : Prop where
  total (a b : κ) : before a b ∨ before b a
  antisymm {a b : κ} : before a b → before b a → a = b
  trans {a b c : κ} : before a b → before b c → before a c

theorem IsOrder.refl {κ : Type} {before : κ → κ → Bool} (h : IsOrder before) (a : κ) :
    before a a :=
  or_self_iff.mp (h.total a a)

theorem IsOrder.of_not {κ : Type} {before : κ → κ → Bool} (h : IsOrder before) {a b : κ}
    (hab : ¬before a b) : before b a :=
  (h.total a b).resolve_left hab

section Orders

theorem Text.le_iff {a b : Text} : a.le b ↔ a ≤ b := by
  induction a generalizing b with
  | nil => simp [Text.le]
  | cons x a ih =>
    cases b with
    | nil => simp [Text.le]
    | cons y b => simp [Text.le, List.cons_le_cons_iff, ih]

theorem Text.isOrder_le : IsOrder Text.le where
  total a b := by
    rw [Text.le_iff, Text.le_iff]
    exact List.le_total a b
  antisymm h h' := List.le_antisymm (Text.le_iff.mp h) (Text.le_iff.mp h')
  trans h h' := Text.le_iff.mpr (List.le_trans (Text.le_iff.mp h) (Text.le_iff.mp h'))

theorem RunKey.le_iff {a b : RunKey} :
    a.le b ↔ a.transport.le b.transport ∧ (a.transport = b.transport → a.result.le b.result) := by
  rw [RunKey.le]
  split
  · rename_i he
    simp [he, Text.isOrder_le.refl]
  · rename_i hne
    simp [hne]

theorem RunKey.isOrder_le : IsOrder RunKey.le where
  total a b := by
    rw [RunKey.le_iff, RunKey.le_iff]
    by_cases he : a.transport = b.transport
    · simpa [he, Text.isOrder_le.refl] using Text.isOrder_le.total a.result b.result
    · have hne : ¬b.transport = a.transport := fun h => he h.symm
      simpa [he, hne] using Text.isOrder_le.total a.transport b.transport
  antisymm {a b} h h' := by
    rw [RunKey.le_iff] at h h'
    have ht := Text.isOrder_le.antisymm h.1 h'.1
    have hr := Text.isOrder_le.antisymm (h.2 ht) (h'.2 ht.symm)
    cases a
    cases b
    cases ht
    cases hr
    rfl
  trans {a b c} h h' := by
    rw [RunKey.le_iff] at h h' ⊢
    refine ⟨Text.isOrder_le.trans h.1 h'.1, ?_⟩
    intro he
    have hab := Text.isOrder_le.antisymm h.1 (he ▸ h'.1)
    exact Text.isOrder_le.trans (h.2 hab) (h'.2 (hab ▸ he))

end Orders

namespace Tally

variable {κ : Type} {before : κ → κ → Bool} {t : Tally κ} {j k : κ} {m n : Nat}

/-- The keys are in order, and none is there twice. -/
def Sorted (before : κ → κ → Bool) (t : Tally κ) : Prop :=
  t.Pairwise fun a b => before a.1 b.1 ∧ a.1 ≠ b.1

/-- A key that goes in front of a tally in order is not in it. -/
theorem Sorted.lt_of_before (hb : IsOrder before) (h : Sorted before ((j, m) :: t))
    (hkj : before k j) (hne : k ≠ j) :
    ∀ e ∈ (j, m) :: t, before k e.1 ∧ k ≠ e.1 := by
  refine List.forall_mem_cons.mpr ⟨⟨hkj, hne⟩, ?_⟩
  intro e he
  have hje := (List.pairwise_cons.mp h).1 e he
  refine ⟨hb.trans hkj hje.1, ?_⟩
  rintro rfl
  exact hne (hb.antisymm hkj hje.1)

variable [DecidableEq κ]

theorem count_cons : count ((j, m) :: t) k = if j = k then m else count t k := by
  rw [count, List.lookup_cons]
  by_cases h : j = k
  · rw [if_pos h, beq_iff_eq.mpr h.symm]
    rfl
  · rw [if_neg h, beq_eq_false_iff_ne.mpr (Ne.symm h)]
    rfl

theorem count_eq_zero (h : ∀ e ∈ t, e.1 ≠ k) : t.count k = 0 := by
  induction t with
  | nil => rfl
  | cons e t ih =>
    obtain ⟨he, ht⟩ := List.forall_mem_cons.mp h
    rw [count_cons, if_neg he, ih ht]

theorem forall_mem_add {P : κ → Prop} (hk : P k) (ht : ∀ e ∈ t, P e.1) :
    ∀ e ∈ t.add before k n, P e.1 := by
  induction t with
  | nil => exact List.forall_mem_singleton.mpr hk
  | cons e t ih =>
    obtain ⟨j, m⟩ := e
    obtain ⟨hj, ht'⟩ := List.forall_mem_cons.mp ht
    rw [add]
    split
    · exact List.forall_mem_cons.mpr ⟨hj, ht'⟩
    · split
      · exact List.forall_mem_cons.mpr ⟨hk, ht⟩
      · exact List.forall_mem_cons.mpr ⟨hj, ih ht'⟩

theorem Sorted.add (hb : IsOrder before) (h : t.Sorted before) (k : κ) (n : Nat) :
    (t.add before k n).Sorted before := by
  induction t with
  | nil => exact List.pairwise_singleton _ _
  | cons e t ih =>
    obtain ⟨j, m⟩ := e
    obtain ⟨hj, ht⟩ := List.pairwise_cons.mp h
    rw [Tally.add]
    split
    · exact List.pairwise_cons.mpr ⟨hj, ht⟩
    · rename_i hne
      split
      · rename_i hkj
        exact List.pairwise_cons.mpr ⟨h.lt_of_before hb hkj hne, h⟩
      · rename_i hkj
        have hjk : before j k ∧ j ≠ k := ⟨hb.of_not hkj, Ne.symm hne⟩
        refine List.pairwise_cons.mpr ⟨?_, ih ht⟩
        exact forall_mem_add (P := fun x => before j x ∧ j ≠ x) hjk hj

theorem Sorted.count_add (hb : IsOrder before) (h : t.Sorted before) (k j : κ) (n : Nat) :
    (t.add before k n).count j = t.count j + if k = j then n else 0 := by
  induction t with
  | nil =>
    rw [Tally.add, count_cons]
    exact (Nat.zero_add _).symm
  | cons e t ih =>
    obtain ⟨i, m⟩ := e
    obtain ⟨-, ht⟩ := List.pairwise_cons.mp h
    rw [Tally.add]
    split
    · rename_i hki
      rw [count_cons, count_cons, hki]
      split <;> rfl
    · rename_i hne
      split
      · rename_i hki
        rw [count_cons]
        split
        · rename_i hkj
          have hzero := count_eq_zero fun e he => (h.lt_of_before hb hki hne e he).2.symm
          rw [← hkj, hzero, Nat.zero_add]
        · rfl
      · rw [count_cons, count_cons, ih ht]
        split
        · rename_i hij
          rw [if_neg (hij ▸ hne), Nat.add_zero]
        · rfl

/-- It does not matter what is added first. -/
theorem add_add_comm (hb : IsOrder before) (t : Tally κ) (j k : κ) (m n : Nat) :
    (t.add before j m).add before k n = (t.add before k n).add before j m := by
  obtain ⟨htotal, hantisymm, htrans⟩ := hb
  induction t with
  | nil => grind [Tally.add]
  | cons e t ih =>
    -- With the first key there are three to be put in order, and any two of them may be the same.
    obtain ⟨i, l⟩ := e
    grind [Tally.add]

end Tally

theorem ResultLabel.ofString_name_inj {a b : ResultLabel} :
    Text.ofString a.name = Text.ofString b.name ↔ a = b := by
  constructor
  · cases a <;> cases b <;> decide
  · rintro rfl
    rfl

namespace Ledger

variable {l : Ledger} {es es' : List (Text × ResultLabel)}

def Sorted (l : Ledger) : Prop := l.runs.Sorted RunKey.le

theorem sorted_empty : Sorted {} := List.Pairwise.nil

theorem Sorted.enter (h : l.Sorted) (transport : Text) (label : ResultLabel) :
    (l.enter transport label).Sorted :=
  Tally.Sorted.add RunKey.isOrder_le h _ _

theorem Sorted.count_enter (h : l.Sorted) (transport : Text) (label : ResultLabel)
    (transport' label' : Text) :
    (l.enter transport label).count transport' label' = l.count transport' label' +
      if transport = transport' ∧ Text.ofString label.name = label' then 1 else 0 := by
  have hadd := Tally.Sorted.count_add RunKey.isOrder_le h
    ⟨transport, Text.ofString label.name⟩ ⟨transport', label'⟩ 1
  simp only [RunKey.mk.injEq] at hadd
  exact hadd

theorem enter_enter_comm (l : Ledger) (t t' : Text) (r r' : ResultLabel) :
    (l.enter t r).enter t' r' = (l.enter t' r').enter t r := by
  rw [enter, enter, enter, enter]
  simp only [Tally.add_add_comm RunKey.isOrder_le l.runs ⟨t, _⟩,
    Tally.add_add_comm Text.isOrder_le l.timed t]

/-- Enters requests one after the other, each by its transport and result. -/
def enterAll (l : Ledger) (es : List (Text × ResultLabel)) : Ledger :=
  es.foldl (fun l e => l.enter e.1 e.2) l

theorem enterAll_append (l : Ledger) (es es' : List (Text × ResultLabel)) :
    l.enterAll (es ++ es') = (l.enterAll es).enterAll es' :=
  List.foldl_append

theorem enterAll_perm (h : es.Perm es') (l : Ledger) : l.enterAll es = l.enterAll es' :=
  h.foldl_eq' (fun e _ e' _ l => l.enter_enter_comm e.1 e'.1 e.2 e'.2) l

theorem Sorted.enterAll (h : l.Sorted) (es : List (Text × ResultLabel)) :
    (l.enterAll es).Sorted := by
  induction es generalizing l with
  | nil => exact h
  | cons e es ih => exact ih (h.enter e.1 e.2)

theorem Sorted.count_enterAll (h : l.Sorted) (es : List (Text × ResultLabel)) (transport : Text)
    (label : ResultLabel) :
    (l.enterAll es).count transport (Text.ofString label.name) =
      l.count transport (Text.ofString label.name) + es.count (transport, label) := by
  induction es generalizing l with
  | nil => rfl
  | cons e es ih =>
    obtain ⟨t, r⟩ := e
    have hstep := ih (h.enter t r)
    rw [h.count_enter] at hstep
    simp only [ResultLabel.ofString_name_inj] at hstep
    simp only [List.count_cons, beq_iff_eq, Prod.mk.injEq]
    exact hstep.trans (by omega)

end Ledger

end TinyLisp

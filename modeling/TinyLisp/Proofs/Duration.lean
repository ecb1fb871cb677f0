import Mathlib.Data.UInt
import TinyLisp.Duration

/-!
Durations: what is read is the sum of numbers with units, in 64 bits.

Reading ends when the numbers so far come to more than the bound. A sum wraps before it is held
against the bound, but no sum slips through for that, except the one of the bound and itself, which
comes to nothing. A sum that stays below the bound is read exactly.
-/

namespace TinyLisp

namespace Duration

/-- The characters are numbers with units, which are worth so many nanoseconds. -/
inductive Components : List Char → List Nat → Prop
  | nil : Components [] []
  | cons {cs rest : List Char} {n : Nat} {ns : List Nat} (h : component? cs = some (n, rest))
      (hs : Components rest ns) : Components cs (n :: ns)

variable {cs rest : List Char} {n : Nat} {ns : List Nat} {total m : UInt64} {t : Text}
  {d : Duration}

theorem component?_nil : component? [] = none := rfl

theorem sum?_nil : sum? total [] = some total := by
  rw [sum?, if_pos rfl]

theorem sum?_component (h : component? cs = some (n, rest)) :
    sum? total cs = if bound < (total + UInt64.ofNat n).toNat then none
      else sum? (total + UInt64.ofNat n) rest := by
  have hcs : cs ≠ [] := by
    rintro rfl
    rw [component?_nil] at h
    cases h
  rw [sum?, if_neg hcs]
  split
  · rename_i hnone
    rw [h] at hnone
    cases hnone
  · rename_i hsome
    rw [h] at hsome
    cases hsome
    rfl

/-- A sum of two numbers within the bound is within it too, or each of them is the bound. -/
theorem add_component_le_iff (ht : total.toNat ≤ bound) (h : component? cs = some (n, rest)) :
    (total + UInt64.ofNat n).toNat ≤ bound ↔
      total.toNat + n ≤ bound ∨ total.toNat = bound ∧ n = bound := by
  have hn := (of_component? h).1
  rw [UInt64.toNat_add, UInt64.toNat_ofNat']
  rw [bound] at ht hn ⊢
  omega

/-- What is added up so far is never past the bound. -/
def StaysWithin (total : UInt64) (ns : List Nat) : Prop :=
  ∀ ms, ms <+: ns → (total + UInt64.ofNat ms.sum).toNat ≤ bound

theorem add_sum_nil (total : UInt64) : total + UInt64.ofNat [].sum = total :=
  UInt64.add_zero total

theorem add_sum_cons (total : UInt64) (n : Nat) (ns : List Nat) :
    total + UInt64.ofNat (n :: ns).sum = total + UInt64.ofNat n + UInt64.ofNat ns.sum := by
  rw [List.sum_cons, UInt64.ofNat_add, UInt64.add_assoc]

theorem staysWithin_nil (ht : total.toNat ≤ bound) : StaysWithin total [] := by
  intro ms hms
  rwa [List.prefix_nil.mp hms, add_sum_nil]

theorem StaysWithin.total_le (h : StaysWithin total ns) : total.toNat ≤ bound := by
  have hnil := h [] List.nil_prefix
  rwa [add_sum_nil] at hnil

theorem staysWithin_cons_iff (ht : total.toNat ≤ bound) :
    StaysWithin total (n :: ns) ↔ StaysWithin (total + UInt64.ofNat n) ns := by
  constructor
  · intro h ms hms
    rw [← add_sum_cons]
    exact h (n :: ms) (List.cons_prefix_cons.mpr ⟨rfl, hms⟩)
  · intro h ms hms
    rcases List.prefix_cons_iff.mp hms with rfl | ⟨rs, rfl, hrs⟩
    · exact staysWithin_nil ht [] List.prefix_rfl
    · rw [add_sum_cons]
      exact h rs hrs

theorem Components.sum?_eq (hc : Components cs ns) (h : StaysWithin total ns) :
    sum? total cs = some (total + UInt64.ofNat ns.sum) := by
  induction hc generalizing total with
  | nil => rw [sum?_nil, add_sum_nil]
  | cons hcomp _ ih =>
    have hrest := (staysWithin_cons_iff h.total_le).mp h
    rw [sum?_component hcomp, if_neg (Nat.not_lt.mpr hrest.total_le), ih hrest, add_sum_cons]

theorem components_of_sum? (ht : total.toNat ≤ bound) (h : sum? total cs = some m) :
    ∃ ns, Components cs ns ∧ StaysWithin total ns := by
  fun_induction sum? total cs with
  | case1 total => exact ⟨[], .nil, staysWithin_nil ht⟩
  | case2 => cases h
  | case3 => cases h
  | case4 total cs hcs n rest hcomp hshort more hle ih =>
    obtain ⟨ns, hc, hw⟩ := ih (Nat.not_lt.mp hle) h
    exact ⟨n :: ns, .cons hcomp hc, (staysWithin_cons_iff ht).mpr hw⟩

theorem sum?_eq_some_iff (ht : total.toNat ≤ bound) :
    sum? total cs = some m ↔
      ∃ ns, Components cs ns ∧ StaysWithin total ns ∧ m = total + UInt64.ofNat ns.sum := by
  constructor
  · intro h
    obtain ⟨ns, hc, hw⟩ := components_of_sum? ht h
    rw [hc.sum?_eq hw] at h
    exact ⟨ns, hc, hw, (Option.some.inj h).symm⟩
  · rintro ⟨ns, hc, hw, rfl⟩
    exact hc.sum?_eq hw

example : sum? 0 "9223372036854775808ns9223372036854775808ns".toList = some 0 := by cbv

theorem staysWithin_of_sum_le (h : ns.sum ≤ bound) : StaysWithin 0 ns := by
  rintro ms ⟨rs, rfl⟩
  rw [List.sum_append] at h
  rw [UInt64.zero_add, UInt64.toNat_ofNat']
  have hmod := Nat.mod_le ms.sum (2 ^ 64)
  omega

theorem Components.eq_nil_iff (h : Components cs ns) : cs = [] ↔ ns = [] := by
  cases h with
  | nil => exact ⟨fun _ => rfl, fun _ => rfl⟩
  | cons hcomp hs =>
    refine ⟨?_, nofun⟩
    rintro rfl
    cases hcomp

theorem Components.ne_zero (h : Components cs ns) : cs ≠ ['0'] := by
  rintro rfl
  cases h with
  | cons hcomp hs => cases hcomp

theorem ofSum?_ofNat_eq_some_iff {negative : Bool} :
    ofSum? negative (UInt64.ofNat n) = some d ↔
      (negative ∨ (UInt64.ofNat n).toNat < bound) ∧
        d = ⟨Int64.ofInt (if negative then -(n : Int) else n)⟩ := by
  have hn : (UInt64.ofNat n).toInt64 = Int64.ofInt n := by
    rw [UInt64.toInt64_ofNat', Int64.ofInt_eq_ofNat]
  rw [ofSum?, hn]
  generalize (UInt64.ofNat n).toNat = k
  cases negative with
  | true => simp [Int64.ofInt_neg, eq_comm]
  | false => simp [eq_comm]

/-- A bare zero is read, and so are numbers with units. They are worth their sum with the sign that
is in front of them, in 64 bits. -/
theorem parse?_eq_some_iff :
    parse? t = some d ↔
      unsigned t.chars = ['0'] ∧ d = ⟨0⟩ ∨
      ∃ ns, ns ≠ [] ∧ Components (unsigned t.chars) ns ∧ StaysWithin 0 ns ∧
        (isNegative t.chars ∨ (UInt64.ofNat ns.sum).toNat < bound) ∧
        d = ⟨Int64.ofInt (if isNegative t.chars then -(ns.sum : Int) else ns.sum)⟩ := by
  rw [parse?]
  constructor
  · intro h
    split at h
    · rename_i hzero
      exact .inl ⟨hzero, (Option.some.inj h).symm⟩
    · split at h
      · cases h
      · rename_i hempty
        obtain ⟨n, hn, hd⟩ := Option.bind_eq_some_iff.mp h
        obtain ⟨ns, hc, hw, rfl⟩ := (sum?_eq_some_iff (by decide)).mp hn
        rw [UInt64.zero_add] at hd
        exact .inr ⟨ns, mt hc.eq_nil_iff.mpr hempty, hc, hw, ofSum?_ofNat_eq_some_iff.mp hd⟩
  · rintro (⟨hzero, rfl⟩ | ⟨ns, hne, hc, hw, hd⟩)
    · exact if_pos hzero
    · rw [if_neg hc.ne_zero, if_neg (mt hc.eq_nil_iff.mp hne), hc.sum?_eq hw, UInt64.zero_add]
      exact ofSum?_ofNat_eq_some_iff.mpr hd

/-- A sum below the bound is read exactly. -/
theorem Components.parse?_exact (hc : Components (unsigned t.chars) ns) (hne : ns ≠ [])
    (h : ns.sum < bound) :
    ∃ d, parse? t = some d ∧
      d.nanos.toInt = if isNegative t.chars then -(ns.sum : Int) else ns.sum := by
  have hsum : (UInt64.ofNat ns.sum).toNat < bound := by
    rw [UInt64.toNat_ofNat']
    exact Nat.lt_of_le_of_lt (Nat.mod_le _ _) h
  refine ⟨_, parse?_eq_some_iff.mpr
    (.inr ⟨ns, hne, hc, staysWithin_of_sum_le (Nat.le_of_lt h), .inr hsum, rfl⟩), ?_⟩
  rw [bound] at h
  apply Int64.toInt_ofInt_of_le
  · split <;> omega
  · split <;> omega

end Duration

end TinyLisp

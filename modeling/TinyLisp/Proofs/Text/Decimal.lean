import TinyLisp.Text.Decimal
import TinyLisp.Proofs.Text.Utf8

/-!
Decimal numerals: what a spelling is worth, said without the function that reads it, and that
`decimal` writes the one spelling which has no plus sign and no zero to spare.
-/

namespace TinyLisp

/-- One or more decimal digits. -/
def IsDigits (ds : List Char) : Prop := ds ≠ [] ∧ ∀ c ∈ ds, c.isDigit

/-- `SpellsInt cs v`: one or more digits after at most one sign, worth `v`. -/
inductive SpellsInt : List Char → Int → Prop
  | unsigned {ds : List Char} (h : IsDigits ds) : SpellsInt ds (Nat.ofDigitChars 10 ds 0)
  | plus {ds : List Char} (h : IsDigits ds) : SpellsInt ('+' :: ds) (Nat.ofDigitChars 10 ds 0)
  | minus {ds : List Char} (h : IsDigits ds) : SpellsInt ('-' :: ds) (-Nat.ofDigitChars 10 ds 0)

theorem digits?_eq_some_iff {cs : List Char} {n : Nat} :
    digits? cs = some n ↔ IsDigits cs ∧ n = Nat.ofDigitChars 10 cs 0 := by
  rw [digits?]
  split
  · rename_i h
    rw [List.all_eq_true] at h
    constructor
    · intro he
      exact ⟨h, (Option.some.inj he).symm⟩
    · rintro ⟨_, rfl⟩
      rfl
  · rename_i h
    rw [List.all_eq_true] at h
    constructor
    · intro he
      cases he
    · rintro ⟨hd, _⟩
      exact absurd hd h

theorem IsDigits.head_isDigit {c : Char} {ds : List Char} (h : IsDigits (c :: ds)) : c.isDigit :=
  h.2 c List.mem_cons_self

section Signs

variable {cs ds : List Char} {v : Int}

theorem spellsInt_plus_iff :
    SpellsInt ('+' :: ds) v ↔ IsDigits ds ∧ v = Nat.ofDigitChars 10 ds 0 := by
  constructor
  · intro h
    cases h with
    | plus hd => exact ⟨hd, rfl⟩
    | unsigned hd => exact absurd hd.head_isDigit (by decide)
  · rintro ⟨hd, rfl⟩
    exact .plus hd

theorem spellsInt_minus_iff :
    SpellsInt ('-' :: ds) v ↔ IsDigits ds ∧ v = -Nat.ofDigitChars 10 ds 0 := by
  constructor
  · intro h
    cases h with
    | minus hd => exact ⟨hd, rfl⟩
    | unsigned hd => exact absurd hd.head_isDigit (by decide)
  · rintro ⟨hd, rfl⟩
    exact .minus hd

theorem spellsInt_unsigned_iff (hplus : ∀ ds, cs = '+' :: ds → False)
    (hminus : ∀ ds, cs = '-' :: ds → False) :
    SpellsInt cs v ↔ IsDigits cs ∧ v = Nat.ofDigitChars 10 cs 0 := by
  constructor
  · intro h
    cases h with
    | unsigned hd => exact ⟨hd, rfl⟩
    | plus => exact absurd rfl (hplus _)
    | minus => exact absurd rfl (hminus _)
  · rintro ⟨hd, rfl⟩
    exact .unsigned hd

end Signs

theorem integer?_eq_some_iff {cs : List Char} {v : Int} :
    integer? cs = some v ↔ SpellsInt cs v := by
  constructor
  · fun_cases integer? cs with
    | case1 ds =>
      intro h
      obtain ⟨n, hn, rfl⟩ := Option.map_eq_some_iff.mp h
      obtain ⟨hd, rfl⟩ := digits?_eq_some_iff.mp hn
      exact .plus hd
    | case2 ds =>
      intro h
      obtain ⟨n, hn, rfl⟩ := Option.map_eq_some_iff.mp h
      obtain ⟨hd, rfl⟩ := digits?_eq_some_iff.mp hn
      exact .minus hd
    | case3 =>
      intro h
      obtain ⟨n, hn, rfl⟩ := Option.map_eq_some_iff.mp h
      obtain ⟨hd, rfl⟩ := digits?_eq_some_iff.mp hn
      exact .unsigned hd
  · intro h
    cases h with
    | plus hd => exact Option.map_eq_some_iff.mpr ⟨_, digits?_eq_some_iff.mpr ⟨hd, rfl⟩, rfl⟩
    | minus hd => exact Option.map_eq_some_iff.mpr ⟨_, digits?_eq_some_iff.mpr ⟨hd, rfl⟩, rfl⟩
    | unsigned hd =>
      rw [integer?.eq_3]
      · exact Option.map_eq_some_iff.mpr ⟨_, digits?_eq_some_iff.mpr ⟨hd, rfl⟩, rfl⟩
      · rintro ds rfl
        exact absurd hd.head_isDigit (by decide)
      · rintro ds rfl
        exact absurd hd.head_isDigit (by decide)

/-- The value of a spelling is one of 32 bits exactly when it is read as that. -/
theorem int32?_eq_some_iff {cs : List Char} {v : Int32} :
    int32? cs = some v ↔ SpellsInt cs v.toInt := by
  rw [← integer?_eq_some_iff, int32?]
  split
  · rename_i i hi
    rw [hi]
    split
    · rename_i hr
      have hv : (Int32.ofInt i).toInt = i := Int32.toInt_ofInt_of_le (by omega) (by omega)
      constructor
      · intro h
        cases h
        rw [hv]
      · intro h
        rw [Option.some.inj h, Int32.ofInt_toInt]
    · rename_i hr
      constructor
      · intro h
        cases h
      · intro h
        cases h
        have hlow := v.le_toInt
        have hhigh := v.toInt_lt
        omega
  · rename_i hi
    rw [hi]
    simp

theorem SpellsInt.mem {cs : List Char} {v : Int} {c : Char} (h : SpellsInt cs v) (hc : c ∈ cs) :
    c.isDigit ∨ c = '+' ∨ c = '-' := by
  cases h with
  | unsigned hd => exact .inl (hd.2 c hc)
  | plus hd =>
    rcases List.mem_cons.mp hc with rfl | hc
    · exact .inr (.inl rfl)
    · exact .inl (hd.2 c hc)
  | minus hd =>
    rcases List.mem_cons.mp hc with rfl | hc
    · exact .inr (.inr rfl)
    · exact .inl (hd.2 c hc)

theorem SpellsInt.ne_nil {cs : List Char} {v : Int} (h : SpellsInt cs v) : cs ≠ [] := by
  cases h with
  | unsigned hd => exact hd.1
  | plus => simp
  | minus => simp

/-- A numeral is plain ASCII, so its bytes are settled by its characters. -/
theorem SpellsInt.ofChars_chars {t : Text} {v : Int} (h : SpellsInt t.chars v) :
    Text.ofChars t.chars = t := by
  apply Text.ofChars_chars
  intro hm
  rcases h.mem hm with hd | hp | hm
  · exact absurd hd (by decide)
  · exact absurd hp (by decide)
  · exact absurd hm (by decide)

/-- A spelling has one value. -/
theorem SpellsInt.unique {cs : List Char} {v w : Int} (h : SpellsInt cs v) (h' : SpellsInt cs w) :
    v = w := by
  have hv := integer?_eq_some_iff.mpr h
  rw [integer?_eq_some_iff.mpr h'] at hv
  exact (Option.some.inj hv).symm

theorem isDigits_toDigits (n : Nat) : IsDigits (Nat.toDigits 10 n) :=
  ⟨Nat.toDigits_ne_nil, fun _ hc => Nat.isDigit_of_mem_toDigits (by decide) (by decide) hc⟩

theorem spellsInt_decimal (i : Int) : SpellsInt (decimal i) i := by
  have hd := isDigits_toDigits i.natAbs
  have hn : Nat.ofDigitChars 10 (Nat.toDigits 10 i.natAbs) 0 = i.natAbs :=
    Nat.ofDigitChars_ten_toDigits
  rw [decimal]
  split
  · have h := SpellsInt.minus hd
    rwa [hn, show -(i.natAbs : Int) = i by omega] at h
  · have h := SpellsInt.unsigned hd
    rwa [hn, show (i.natAbs : Int) = i by omega] at h

theorem decimal_injective {i j : Int} (h : decimal i = decimal j) : i = j :=
  (spellsInt_decimal i).unique (h ▸ spellsInt_decimal j)

/-- A spelling with nothing to spare. -/
structure HasNoExcess (cs : List Char) : Prop where
  no_plus : cs.head? ≠ some '+'
  no_leading_zero : ∀ ds, cs = '0' :: ds → ds = []
  no_zero_after_minus : ∀ ds, cs = '-' :: ds → ds.head? ≠ some '0'

theorem head?_toDigits_ne_zero {n : Nat} (h : 0 < n) : (Nat.toDigits 10 n).head? ≠ some '0' := by
  induction n using Nat.strongRecOn with
  | ind n ih =>
    by_cases hn : n < 10
    · have hone : ∀ m < 10, 0 < m → [m.digitChar].head? ≠ some '0' := by decide
      rw [Nat.toDigits_of_lt_base hn]
      exact hone n hn h
    · have hrec := ih (n / 10) (by omega) (by omega)
      obtain ⟨c, cs, hc⟩ := List.exists_cons_of_ne_nil (Nat.toDigits_ne_nil (n := n / 10) (b := 10))
      rw [Nat.toDigits_of_base_le (by decide) (by omega), hc]
      rwa [hc] at hrec

theorem IsDigits.head?_ne {ds : List Char} (h : IsDigits ds) {c : Char} (hc : c.isDigit = false) :
    ds.head? ≠ some c := by
  intro he
  have hd := h.2 c (List.mem_of_mem_head? he)
  rw [hc] at hd
  cases hd

theorem hasNoExcess_decimal (i : Int) : HasNoExcess (decimal i) := by
  have hd := isDigits_toDigits i.natAbs
  rw [decimal]
  split
  · refine ⟨by simp, by simp, ?_⟩
    rintro ds ⟨⟩
    exact head?_toDigits_ne_zero (by omega)
  · refine ⟨hd.head?_ne rfl, ?_, ?_⟩
    · intro ds he
      by_cases hz : i.natAbs = 0
      · rw [hz, Nat.toDigits_zero] at he
        cases he
        rfl
      · have hz' := head?_toDigits_ne_zero (Nat.pos_of_ne_zero hz)
        rw [he] at hz'
        exact absurd rfl hz'
    · intro ds he
      exact absurd (congrArg List.head? he) (hd.head?_ne rfl)

theorem digitChar_toNat {c : Char} (h : c.isDigit) :
    c.toNat - '0'.toNat < 10 ∧ (c.toNat - '0'.toNat).digitChar = c := by
  have hn : 48 ≤ c.toNat ∧ c.toNat ≤ 57 := Char.isDigit_iff_toNat.mp h
  have hall : ∀ d < 10, (Nat.digitChar d).toNat = d + 48 := by decide
  have hlt : c.toNat - '0'.toNat < 10 := by
    change c.toNat - 48 < 10
    omega
  refine ⟨hlt, Char.toNat_inj.mp ?_⟩
  rw [hall _ hlt]
  exact Nat.sub_add_cancel hn.1

/-- Digits after a number that is not zero are all kept. -/
theorem toDigits_ofDigitChars_of_pos {ds : List Char} (h : ∀ c ∈ ds, c.isDigit) {m : Nat}
    (hm : 0 < m) : Nat.toDigits 10 (Nat.ofDigitChars 10 ds m) = Nat.toDigits 10 m ++ ds := by
  induction ds generalizing m with
  | nil => rw [Nat.ofDigitChars_nil, List.append_nil]
  | cons c ds ih =>
    obtain ⟨hc, hds⟩ := List.forall_mem_cons.mp h
    obtain ⟨hlt, hd⟩ := digitChar_toNat hc
    rw [Nat.ofDigitChars_cons, ih hds (by omega), ← Nat.toDigits_append_toDigits (by decide) hm hlt,
      Nat.toDigits_of_lt_base hlt, hd, List.append_assoc, List.singleton_append]

theorem IsDigits.toDigits_ofDigitChars {ds : List Char} (h : IsDigits ds)
    (hz : ds.head? ≠ some '0') : Nat.toDigits 10 (Nat.ofDigitChars 10 ds 0) = ds := by
  obtain ⟨c, ds, rfl⟩ := List.exists_cons_of_ne_nil h.1
  obtain ⟨hc, hds⟩ := List.forall_mem_cons.mp h.2
  obtain ⟨hlt, hd⟩ := digitChar_toNat hc
  have hpos : 0 < c.toNat - '0'.toNat := by
    apply Nat.pos_of_ne_zero
    intro he
    rw [he] at hd
    exact hz (congrArg some hd.symm)
  rw [Nat.ofDigitChars_cons, Nat.mul_zero, Nat.zero_add, toDigits_ofDigitChars_of_pos hds hpos,
    Nat.toDigits_of_lt_base hlt, hd, List.singleton_append]

/-- `decimal` is the only spelling with nothing to spare. -/
theorem eq_decimal_iff {cs : List Char} {v : Int} :
    cs = decimal v ↔ SpellsInt cs v ∧ HasNoExcess cs := by
  constructor
  · rintro rfl
    exact ⟨spellsInt_decimal v, hasNoExcess_decimal v⟩
  · rintro ⟨h, hx⟩
    cases h with
    | unsigned hd =>
      rw [decimal, if_neg (by omega), Int.natAbs_natCast]
      by_cases hz : cs.head? = some '0'
      · obtain ⟨es, rfl⟩ := List.head?_eq_some_iff.mp hz
        rw [hx.no_leading_zero es rfl]
        decide
      · exact (hd.toDigits_ofDigitChars hz).symm
    | plus => exact absurd rfl hx.no_plus
    | @minus ds hd =>
      have hz := hx.no_zero_after_minus ds rfl
      have hds := hd.toDigits_ofDigitChars hz
      have hne : Nat.ofDigitChars 10 ds 0 ≠ 0 := by
        intro he
        rw [he, Nat.toDigits_zero] at hds
        exact hz (hds ▸ rfl)
      rw [decimal, if_pos (by omega), Int.natAbs_neg, Int.natAbs_natCast, hds]

end TinyLisp

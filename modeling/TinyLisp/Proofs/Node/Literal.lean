import TinyLisp.Proofs.Node.Grammar
import TinyLisp.Value

/-!
Literals: the words that spell a truth value or a number of 32 bits.

A numeral is worth the exact integer that its digits spell, however many there are. The same number
comes out when the digits are taken one by one into a word of 64 bits and reading breaks off as soon
as 32 bits do not hold it: up to there nothing wraps, and after that the number only grows.
-/

namespace TinyLisp

/-- A number with one more digit behind it, if 32 bits hold it. From `2 ^ 64 / 10 + 1` on a number
would not even fit the word when it is multiplied. -/
def pushDigit? (n : UInt64) (c : Char) : Option UInt64 :=
  if c.isDigit ∧ n < 1844674407370955162 then
    let m := n * 10 + UInt64.ofNat (c.toNat - '0'.toNat)
    if n * 10 ≤ m ∧ m ≤ 4294967295 then some m else none
  else none

/-- The number of one or more digits, read from the left. -/
def wordDigits? (cs : List Char) : Option UInt64 :=
  if cs = [] then none else cs.foldlM pushDigit? 0

/-- The integer of digits after at most one sign, as a word that 32 bits are enough for. -/
def wordInteger? : List Char → Option Int64
  | '+' :: cs => ((wordDigits? cs).filter (· < 2147483648)).map UInt64.toInt64
  | '-' :: cs => ((wordDigits? cs).filter (· ≤ 2147483648)).map fun n => -n.toInt64
  | cs => ((wordDigits? cs).filter (· < 2147483648)).map UInt64.toInt64

section Words

variable {c : Char} {cs ds : List Char} {n m : UInt64} {i : Int64}

theorem le_ofDigitChars (ds : List Char) (k : Nat) : k ≤ Nat.ofDigitChars 10 ds k := by
  induction ds generalizing k with
  | nil => exact Nat.le_refl k
  | cons c ds ih =>
    have h := ih (10 * k + (c.toNat - '0'.toNat))
    rw [Nat.ofDigitChars_cons]
    omega

/-- Within 32 bits a digit is put behind a number as if there were no bounds. -/
theorem pushDigit?_eq_some_iff (hn : n.toNat ≤ 4294967295) :
    pushDigit? n c = some m ↔
      c.isDigit ∧ m.toNat = 10 * n.toNat + (c.toNat - '0'.toNat) ∧ m.toNat ≤ 4294967295 := by
  have hcut : n < 1844674407370955162 := by
    rw [UInt64.lt_iff_toNat_lt]
    exact Nat.lt_of_le_of_lt hn (by decide)
  by_cases hc : c.isDigit
  · have hd : c.toNat - '0'.toNat < 10 := (digitChar_toNat hc).1
    have hten : (n * 10).toNat = 10 * n.toNat := by
      rw [UInt64.toNat_mul]
      change n.toNat * 10 % 2 ^ 64 = _
      omega
    have hsum : (n * 10 + UInt64.ofNat (c.toNat - '0'.toNat)).toNat =
        10 * n.toNat + (c.toNat - '0'.toNat) := by
      rw [UInt64.toNat_add, hten, UInt64.toNat_ofNat']
      omega
    have hle : n * 10 ≤ n * 10 + UInt64.ofNat (c.toNat - '0'.toNat) := by
      rw [UInt64.le_iff_toNat_le, hten, hsum]
      exact Nat.le_add_right _ _
    rw [pushDigit?, if_pos ⟨hc, hcut⟩]
    dsimp only
    generalize n * 10 + UInt64.ofNat (c.toNat - '0'.toNat) = k at hsum hle ⊢
    constructor
    · intro h
      split at h
      · rename_i hk
        cases h
        exact ⟨hc, hsum, UInt64.le_iff_toNat_le.mp hk.2⟩
      · cases h
    · rintro ⟨-, hvalue, hbound⟩
      obtain rfl : k = m := UInt64.toNat_inj.mp (hsum.trans hvalue.symm)
      rw [if_pos ⟨hle, UInt64.le_iff_toNat_le.mpr hbound⟩]
  · rw [pushDigit?, if_neg (fun h => hc h.1)]
    simp [hc]

theorem foldlM_pushDigit?_eq_some_iff (hn : n.toNat ≤ 4294967295) :
    ds.foldlM pushDigit? n = some m ↔
      (∀ c ∈ ds, c.isDigit) ∧ m.toNat = Nat.ofDigitChars 10 ds n.toNat ∧
        m.toNat ≤ 4294967295 := by
  induction ds generalizing n with
  | nil =>
    rw [List.foldlM_nil, Nat.ofDigitChars_nil, UInt64.toNat_inj]
    constructor
    · rintro ⟨⟩
      exact ⟨nofun, rfl, hn⟩
    · rintro ⟨-, rfl, -⟩
      rfl
  | cons c ds ih =>
    rw [List.foldlM_cons, Nat.ofDigitChars_cons]
    constructor
    · intro h
      obtain ⟨k, hk, hds⟩ := Option.bind_eq_some_iff.mp h
      obtain ⟨hc, hvalue, hbound⟩ := (pushDigit?_eq_some_iff hn).mp hk
      rw [← hvalue]
      obtain ⟨hdigits, hm⟩ := (ih hbound).mp hds
      exact ⟨List.forall_mem_cons.mpr ⟨hc, hdigits⟩, hm⟩
    · rintro ⟨hdigits, hvalue, hbound⟩
      obtain ⟨hc, hds⟩ := List.forall_mem_cons.mp hdigits
      -- Digits never make a number smaller, so this one has room if all of them have.
      have hgrow := le_ofDigitChars ds (10 * n.toNat + (c.toNat - '0'.toNat))
      have hk : (UInt64.ofNat (10 * n.toNat + (c.toNat - '0'.toNat))).toNat =
          10 * n.toNat + (c.toNat - '0'.toNat) := by
        rw [UInt64.toNat_ofNat']
        omega
      have hpush := (pushDigit?_eq_some_iff hn).mpr ⟨hc, hk, by omega⟩
      refine Option.bind_eq_some_iff.mpr ⟨_, hpush, (ih (by omega)).mpr ⟨hds, ?_, hbound⟩⟩
      rw [hvalue, hk]

theorem wordDigits?_eq_some_iff :
    wordDigits? cs = some n ↔
      IsDigits cs ∧ n.toNat = Nat.ofDigitChars 10 cs 0 ∧ n.toNat ≤ 4294967295 := by
  rw [wordDigits?]
  split
  · subst cs
    simp [IsDigits]
  · rename_i hne
    rw [foldlM_pushDigit?_eq_some_iff (by decide)]
    simp [IsDigits, hne]

theorem toInt64_eq_ofNat (n : UInt64) : n.toInt64 = Int64.ofNat n.toNat := by
  rw [← UInt64.toInt64_ofNat', UInt64.ofNat_toNat]

theorem toInt_toInt64 (hn : n.toNat ≤ 2147483648) : n.toInt64.toInt = n.toNat := by
  rw [toInt64_eq_ofNat, Int64.toInt_ofNat_of_lt (by omega)]

theorem toInt_neg_toInt64 (hn : n.toNat ≤ 2147483648) : (-n.toInt64).toInt = -n.toNat := by
  rw [toInt64_eq_ofNat, Int64.toInt_neg_ofNat_of_le (by omega)]

theorem exists_wordDigits? (hd : IsDigits ds) (h : Nat.ofDigitChars 10 ds 0 ≤ 2147483648) :
    ∃ n, wordDigits? ds = some n ∧ n.toNat = Nat.ofDigitChars 10 ds 0 := by
  have hn : (UInt64.ofNat (Nat.ofDigitChars 10 ds 0)).toNat = Nat.ofDigitChars 10 ds 0 := by
    rw [UInt64.toNat_ofNat']
    omega
  exact ⟨_, wordDigits?_eq_some_iff.mpr ⟨hd, hn, by omega⟩, hn⟩

/-- What comes of the number that digits spell, if it is let through up to a bound. -/
theorem map_filter_wordDigits?_eq_some_iff {p : UInt64 → Bool} {f : UInt64 → Int64} {g : Nat → Int}
    {bound : Nat} (hb : bound ≤ 2147483648) (hp : ∀ n, p n ↔ n.toNat ≤ bound)
    (hf : ∀ n, n.toNat ≤ bound → (f n).toInt = g n.toNat) :
    ((wordDigits? ds).filter p).map f = some i ↔
      IsDigits ds ∧ i.toInt = g (Nat.ofDigitChars 10 ds 0) ∧ Nat.ofDigitChars 10 ds 0 ≤ bound := by
  constructor
  · intro h
    obtain ⟨n, hn, rfl⟩ := Option.map_eq_some_iff.mp h
    obtain ⟨hds, hlet⟩ := Option.filter_eq_some_iff.mp hn
    obtain ⟨hd, hvalue, -⟩ := wordDigits?_eq_some_iff.mp hds
    have hle := (hp n).mp hlet
    rw [hf n hle, ← hvalue]
    exact ⟨hd, rfl, hle⟩
  · rintro ⟨hd, hvalue, hle⟩
    obtain ⟨n, hds, hn⟩ := exists_wordDigits? hd (by omega)
    rw [← hn] at hvalue hle
    refine Option.map_eq_some_iff.mpr ⟨n, Option.filter_eq_some_iff.mpr ⟨hds, (hp n).mpr hle⟩, ?_⟩
    rw [← Int64.toInt_inj, hf n hle, hvalue]

theorem unsigned_eq_some_iff :
    ((wordDigits? ds).filter (· < 2147483648)).map UInt64.toInt64 = some i ↔
      IsDigits ds ∧ i.toInt = Nat.ofDigitChars 10 ds 0 ∧
        Nat.ofDigitChars 10 ds 0 ≤ 2147483647 := by
  apply map_filter_wordDigits?_eq_some_iff (by decide)
  · intro n
    rw [decide_eq_true_iff, UInt64.lt_iff_toNat_lt]
    exact Nat.lt_succ_iff
  · intro n hn
    exact toInt_toInt64 (by omega)

theorem negated_eq_some_iff :
    ((wordDigits? ds).filter (· ≤ 2147483648)).map (fun n => -n.toInt64) = some i ↔
      IsDigits ds ∧ i.toInt = -Nat.ofDigitChars 10 ds 0 ∧
        Nat.ofDigitChars 10 ds 0 ≤ 2147483648 := by
  apply map_filter_wordDigits?_eq_some_iff (g := fun n => -(n : Int)) (Nat.le_refl _)
  · intro n
    rw [decide_eq_true_iff, UInt64.le_iff_toNat_le]
    rfl
  · intro n hn
    exact toInt_neg_toInt64 hn

/-- An integer is read in words exactly when 32 bits hold its value. -/
theorem wordInteger?_eq_some_iff :
    wordInteger? cs = some i ↔
      SpellsInt cs i.toInt ∧ -2147483648 ≤ i.toInt ∧ i.toInt ≤ 2147483647 := by
  fun_cases wordInteger? cs with
  | case1 ds =>
    rw [unsigned_eq_some_iff, spellsInt_plus_iff, and_assoc]
    apply and_congr_right
    intro _
    omega
  | case2 ds =>
    rw [negated_eq_some_iff, spellsInt_minus_iff, and_assoc]
    apply and_congr_right
    intro _
    omega
  | case3 cs hplus hminus =>
    rw [unsigned_eq_some_iff, spellsInt_unsigned_iff hplus hminus, and_assoc]
    apply and_congr_right
    intro _
    omega

/-- Narrowed to 32 bits, what is read in words is what is read exactly, and loses nothing. -/
theorem wordInteger?_eq_some_iff_int32? :
    wordInteger? cs = some i ↔ ∃ v, int32? cs = some v ∧ v.toInt64 = i := by
  rw [wordInteger?_eq_some_iff]
  constructor
  · rintro ⟨h, hlow, hhigh⟩
    have hv : (Int32.ofInt i.toInt).toInt = i.toInt :=
      Int32.toInt_ofInt_of_le (by omega) (by omega)
    refine ⟨Int32.ofInt i.toInt, int32?_eq_some_iff.mpr (hv.symm ▸ h), ?_⟩
    rw [← Int64.toInt_inj, Int32.toInt_toInt64, hv]
  · rintro ⟨v, hv, rfl⟩
    have hlow := v.le_toInt
    have hhigh := v.toInt_lt
    rw [Int32.toInt_toInt64]
    exact ⟨int32?_eq_some_iff.mp hv, by omega, by omega⟩

example : wordInteger? "-002147483648".toList = some (-2147483648) := by decide

example : wordInteger? "+2147483648".toList = none := by decide

end Words

namespace Token

variable {t : Token} {b : Bool} {v : Int32}

/-- A token spells a truth value or a number, or is to blame. -/
theorem atom_outcome (t : Token) :
    (∃ b, t.text = Text.ofChars (spellBool b)) ∨ (∃ v, t.Spells v) ∨
      t.atom = .error (.invalidToken t.text) := by
  by_cases htrue : t.text = Text.ofString "true"
  · exact .inl ⟨true, htrue⟩
  · by_cases hfalse : t.text = Text.ofString "false"
    · exact .inl ⟨false, hfalse⟩
    · cases hv : int32? t.text.chars with
      | some v => exact .inr (.inl ⟨v, Token.int32?_eq_some_iff.mp hv⟩)
      | none =>
        right
        right
        rw [atom, if_neg htrue, if_neg hfalse, hv]

theorem atom_eq_boolean_iff :
    t.atom = .ok (.boolean b) ↔ t.text = Text.ofChars (spellBool b) := by
  refine ⟨?_, atom_boolean⟩
  intro h
  rcases t.atom_outcome with ⟨a, ha⟩ | ⟨v, hv⟩ | he
  · rw [atom_boolean ha] at h
    cases h
    exact ha
  · rw [atom_number hv] at h
    cases h
  · rw [he] at h
    cases h

theorem atom_eq_number_iff : t.atom = .ok (.number v) ↔ t.Spells v := by
  refine ⟨?_, atom_number⟩
  intro h
  rcases t.atom_outcome with ⟨a, ha⟩ | ⟨w, hw⟩ | he
  · rw [atom_boolean ha] at h
    cases h
  · rw [atom_number hw] at h
    cases h
    exact hw
  · rw [he] at h
    cases h

/-- A token is read as the truth value or number that its text spells, and any other one is to
blame. A number of 32 bits is read from every spelling of it, also digit by digit in words of 64
bits, and from the one that it is written in as a tree or as a value. -/
theorem atom_reads_literals_exactly (t : Token) :
    (t.atom = .ok (.boolean true) ↔ t.text = Text.ofString "true") ∧
    (t.atom = .ok (.boolean false) ↔ t.text = Text.ofString "false") ∧
    (∀ v : Int32, t.atom = .ok (.number v) ↔
      ∃ cs i, t.text = Text.ofChars cs ∧ SpellsInt cs i ∧
        -2147483648 ≤ i ∧ i ≤ 2147483647 ∧ v.toInt = i) ∧
    ((∃ b, t.atom = .ok (.boolean b)) ∨ (∃ v, t.atom = .ok (.number v)) ∨
      t.atom = .error (.invalidToken t.text)) ∧
    (∀ i : Int64, wordInteger? t.text.chars = some i ↔
      ∃ v : Int32, t.atom = .ok (.number v) ∧ v.toInt64 = i) ∧
    ∀ v : Int32, ({ t with text := (Node.number v).encode } : Token).atom = .ok (.number v) ∧
      (Value.number v).render = (Node.number v).encode := by
  refine ⟨atom_eq_boolean_iff, atom_eq_boolean_iff, ?_, ?_, ?_, ?_⟩
  · intro v
    rw [atom_eq_number_iff]
    constructor
    · rintro ⟨cs, ht, hs⟩
      have hlow := v.le_toInt
      have hhigh := v.toInt_lt
      exact ⟨cs, v.toInt, ht, hs, by omega, by omega, rfl⟩
    · rintro ⟨cs, i, ht, hs, -, -, rfl⟩
      exact ⟨cs, ht, hs⟩
  · rcases t.atom_outcome with ⟨b, hb⟩ | ⟨v, hv⟩ | he
    · exact .inl ⟨b, atom_boolean hb⟩
    · exact .inr (.inl ⟨v, atom_number hv⟩)
    · exact .inr (.inr he)
  · intro i
    rw [wordInteger?_eq_some_iff_int32?]
    simp only [Token.int32?_eq_some_iff, atom_eq_number_iff]
  · intro v
    exact ⟨atom_number ⟨_, rfl, spellsInt_decimal v.toInt⟩, rfl⟩

end Token

end TinyLisp

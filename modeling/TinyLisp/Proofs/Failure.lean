import TinyLisp.Failure

/-!
What a failure is taken for.

The causes of a failure are what is left when all wraps and joins are taken off. They alone settle
the label of the failure and the two answers to it, however they are nested and in whatever order
they are joined.
-/

namespace TinyLisp

namespace Failure

/-- The failure `c` stands somewhere in the given one. -/
inductive IsIn (c : Failure) : Failure → Prop
  | here : IsIn c c
  | wrapped {context : Text} {f : Failure} (h : IsIn c f) : IsIn c (.wrapped context f)
  | joined {f : Failure} {fs : List Failure} (hf : f ∈ fs) (h : IsIn c f) : IsIn c (.joined fs)

/-- A failure that holds no other one. -/
def IsCause : Failure → Prop
  | .wrapped .. | .joined _ => False
  | _ => True

def HasParseFault (f : Failure) : Prop := ∃ e, IsIn (.fault (.parse e)) f

def HasTypeFault (f : Failure) : Prop := ∃ e, IsIn (.fault (.eval (.types e))) f

def HasEnd (f : Failure) : Prop := ∃ r, IsIn (.ended r) f

section Causes

variable {c f g : Failure} {fs : List Failure} {context : Text} {p : Failure → Bool}

theorem isIn_wrapped_iff :
    c.IsIn (.wrapped context f) ↔ c = .wrapped context f ∨ c.IsIn f := by
  constructor
  · intro h
    cases h with
    | here => exact .inl rfl
    | wrapped h => exact .inr h
  · intro h
    rcases h with rfl | h
    · exact .here
    · exact .wrapped h

theorem isIn_joined_iff : c.IsIn (.joined fs) ↔ c = .joined fs ∨ ∃ f ∈ fs, c.IsIn f := by
  constructor
  · intro h
    cases h with
    | here => exact .inl rfl
    | joined hf h => exact .inr ⟨_, hf, h⟩
  · intro h
    rcases h with rfl | ⟨f, hf, h⟩
    · exact .here
    · exact .joined hf h

theorem IsCause.isIn_iff (hf : f.IsCause) : c.IsIn f ↔ c = f := by
  constructor
  · intro h
    cases h with
    | here => rfl
    | wrapped => cases hf
    | joined => cases hf
  · intro h
    exact h ▸ .here

theorem IsCause.isIn_wrapped_iff (hc : c.IsCause) : c.IsIn (.wrapped context f) ↔ c.IsIn f := by
  rw [Failure.isIn_wrapped_iff, or_iff_right]
  intro h
  subst h
  cases hc

theorem IsCause.isIn_joined_iff (hc : c.IsCause) :
    c.IsIn (.joined fs) ↔ ∃ f ∈ fs, c.IsIn f := by
  rw [Failure.isIn_joined_iff, or_iff_right]
  intro h
  subst h
  cases hc

theorem IsCause.any_eq (hf : f.IsCause) (p : Failure → Bool) : f.any p = p f := by
  cases f with
  | fault => rfl
  | ended => rfl
  | other => rfl
  | wrapped => cases hf
  | joined => cases hf

theorem IsCause.any_iff (hf : f.IsCause) : f.any p ↔ ∃ c, c.IsIn f ∧ p c := by
  simp only [hf.any_eq, hf.isIn_iff, exists_eq_left]

mutual

/-- A failure is looked through to the last one in it. -/
theorem any_iff (f : Failure) : f.any p ↔ ∃ c, c.IsIn f ∧ p c := by
  match f with
  | .fault _ => exact IsCause.any_iff trivial
  | .ended _ => exact IsCause.any_iff trivial
  | .other _ => exact IsCause.any_iff trivial
  | .wrapped context f =>
    rw [any, Bool.or_eq_true, any_iff f]
    simp only [isIn_wrapped_iff, or_and_right, exists_or, exists_eq_left]
  | .joined fs =>
    rw [any, Bool.or_eq_true, anyOf_iff fs]
    simp only [isIn_joined_iff, or_and_right, exists_or, exists_eq_left]

theorem anyOf_iff (fs : List Failure) : anyOf p fs ↔ ∃ c, (∃ f ∈ fs, c.IsIn f) ∧ p c := by
  match fs with
  | [] => simp [anyOf]
  | f :: fs =>
    rw [anyOf, Bool.or_eq_true, any_iff f, anyOf_iff fs]
    simp only [List.mem_cons, or_and_right, exists_or, exists_eq_left]

end

theorem any_iff_exists {α : Type} {cause : α → Failure} (hp : ∀ c, p c ↔ ∃ a, c = cause a) :
    f.any p ↔ ∃ a, (cause a).IsIn f := by
  rw [any_iff]
  constructor
  · intro h
    obtain ⟨c, hc, hpc⟩ := h
    obtain ⟨a, rfl⟩ := (hp c).mp hpc
    exact ⟨a, hc⟩
  · intro h
    obtain ⟨a, ha⟩ := h
    exact ⟨_, ha, (hp _).mpr ⟨a, rfl⟩⟩

theorem any_isParseFault_iff : f.any isParseFault ↔ f.HasParseFault := by
  apply any_iff_exists
  intro c
  fun_cases isParseFault c <;> simp_all

theorem any_isTypeFault_iff : f.any isTypeFault ↔ f.HasTypeFault := by
  apply any_iff_exists
  intro c
  fun_cases isTypeFault c <;> simp_all

theorem any_isOver_iff : f.any isOver ↔ f.HasEnd := by
  apply any_iff_exists
  intro c
  fun_cases isOver c <;> simp_all

theorem any_isPastDeadline_iff :
    f.any isPastDeadline ↔ IsIn (.ended .deadlineExceeded) f := by
  have h : f.any isPastDeadline ↔ ∃ _ : Unit, IsIn (.ended .deadlineExceeded) f := by
    apply any_iff_exists
    intro c
    fun_cases isPastDeadline c <;> simp_all
  rw [h, exists_const]

instance : Decidable f.HasParseFault := decidable_of_iff _ any_isParseFault_iff

instance : Decidable f.HasTypeFault := decidable_of_iff _ any_isTypeFault_iff

instance : Decidable f.HasEnd := decidable_of_iff _ any_isOver_iff

theorem result_ne_ok (f : Failure) : f.result ≠ .ok := by
  rw [result]
  split
  · decide
  · split
    · decide
    · split <;> decide

theorem result_eq (f : Failure) :
    f.result =
      if f.HasParseFault then .parseError
      else if f.HasTypeFault then .evalError
      else if f.HasEnd then .canceled
      else .error := by
  simp only [result, any_isParseFault_iff, any_isTypeFault_iff, any_isOver_iff]

/-- Every cause of the one failure is a cause of the other. -/
def SameCauses (f g : Failure) : Prop := ∀ c : Failure, c.IsCause → (c.IsIn f ↔ c.IsIn g)

theorem SameCauses.result_eq (h : f.SameCauses g) : f.result = g.result := by
  have hparse : f.HasParseFault ↔ g.HasParseFault := exists_congr fun e => h _ trivial
  have htype : f.HasTypeFault ↔ g.HasTypeFault := exists_congr fun e => h _ trivial
  have hend : f.HasEnd ↔ g.HasEnd := exists_congr fun r => h _ trivial
  rw [f.result_eq, g.result_eq]
  simp only [hparse, htype, hend]

theorem SameCauses.rpcCode_eq (h : f.SameCauses g) : rpcCode (some f) = rpcCode (some g) := by
  have hdeadline : f.any isPastDeadline ↔ g.any isPastDeadline := by
    rw [any_isPastDeadline_iff, any_isPastDeadline_iff]
    exact h _ trivial
  simp only [rpcCode, resultOf, h.result_eq, Option.map_some, Option.getD_some, hdeadline]

end Causes

section Answers

/-- The ways in which a failure is answered. -/
theorem answers (f : Failure) :
    (f.result.isLanguage ∧ httpStatus (some f) = 400 ∧ rpcCode (some f) = .invalidArgument) ∨
    (f.result = .canceled ∧ httpStatus (some f) = 503 ∧ rpcCode (some f) =
      if f.any isPastDeadline then .deadlineExceeded else .canceled) ∨
    (f.result = .error ∧ httpStatus (some f) = 500 ∧ rpcCode (some f) = .internal) := by
  have hne := f.result_ne_ok
  simp only [httpStatus, rpcCode, resultOf]
  cases h : f.result with
  | ok => exact absurd h hne
  | parseError => exact .inl ⟨rfl, rfl, rfl⟩
  | evalError => exact .inl ⟨rfl, rfl, rfl⟩
  | canceled => exact .inr (.inl ⟨rfl, rfl, rfl⟩)
  | error => exact .inr (.inr ⟨rfl, rfl, rfl⟩)

/-- A failure is labelled by its causes, those of the expression before the end of a context, and
answered over HTTP and RPC alike. Order and depth of the causes make no difference. -/
theorem labelled_by_causes (f : Failure) :
    resultOf (some f) =
      (if f.HasParseFault then .parseError
      else if f.HasTypeFault then .evalError
      else if f.HasEnd then .canceled
      else .error) ∧
    (httpStatus (some f) = 400 ↔ rpcCode (some f) = .invalidArgument) ∧
    (httpStatus (some f) = 400 ↔ (resultOf (some f)).isLanguage) ∧
    (httpStatus (some f) = 503 ↔
      rpcCode (some f) = .canceled ∨ rpcCode (some f) = .deadlineExceeded) ∧
    (httpStatus (some f) = 503 →
      (rpcCode (some f) = .deadlineExceeded ↔ IsIn (.ended .deadlineExceeded) f)) ∧
    (httpStatus (some f) = 500 ↔ rpcCode (some f) = .internal) ∧
    httpStatus (some f) ∈ [400, 503, 500] ∧
    (∀ g, f.SameCauses g → resultOf (some g) = resultOf (some f) ∧
      httpStatus (some g) = httpStatus (some f) ∧ rpcCode (some g) = rpcCode (some f)) := by
  have hsame : ∀ g, f.SameCauses g → resultOf (some g) = resultOf (some f) ∧
      httpStatus (some g) = httpStatus (some f) ∧ rpcCode (some g) = rpcCode (some f) := by
    intro g h
    have hresult : resultOf (some g) = resultOf (some f) := h.result_eq.symm
    exact ⟨hresult, by rw [httpStatus, hresult, httpStatus], h.rpcCode_eq.symm⟩
  refine ⟨f.result_eq, ?_⟩
  rw [← any_isPastDeadline_iff]
  rcases f.answers with ⟨hr, hs, hc⟩ | ⟨hr, hs, hc⟩ | ⟨hr, hs, hc⟩
  · refine ⟨?_, ?_, ?_, ?_, ?_, ?_, hsame⟩ <;> simp [resultOf, hr, hs, hc]
  · cases hp : f.any isPastDeadline <;>
      refine ⟨?_, ?_, ?_, ?_, ?_, ?_, hsame⟩ <;>
      simp [resultOf, hr, hs, hc, hp, ResultLabel.isLanguage]
  · refine ⟨?_, ?_, ?_, ?_, ?_, ?_, hsame⟩ <;> simp [resultOf, hr, hs, hc, ResultLabel.isLanguage]

/-- Two ends of a context around a type fault do not hide it, wherever it stands. Without it the
deadline shows through two wraps and a join, and an opaque copy of the whole is an error like any
other. -/
theorem labelled_by_causes_under_joins :
    let fault : Failure := .fault (.eval (.types (.condition (.number 3))))
    let late : Failure := .wrapped "a" (.wrapped "b" (.ended .deadlineExceeded))
    let f : Failure := .joined [.ended .canceled, .wrapped "c" (.joined [late, fault])]
    let f' : Failure := .joined [.wrapped "d" fault, .ended .deadlineExceeded, .ended .canceled]
    let g : Failure := .joined [.ended .canceled, .joined [], late]
    resultOf (some f) = .evalError ∧ resultOf (some f') = resultOf (some f) ∧
      httpStatus (some g) = 503 ∧ rpcCode (some g) = .deadlineExceeded ∧
      resultOf (some (.other g.message)) = .error := by
  intro fault late f f' g
  have hsame : f.SameCauses f' := by
    intro c hc
    simp [f, f', late, hc.isIn_joined_iff, hc.isIn_wrapped_iff, or_comm, or_assoc]
  have hlate : IsIn (.ended .deadlineExceeded) g :=
    .joined (.tail _ (.tail _ (.head _))) (.wrapped (.wrapped .here))
  obtain ⟨hf, -, -, -, -, -, -, hsort⟩ := f.labelled_by_causes
  obtain ⟨-, -, -, -, hdeadline, -, -, -⟩ := g.labelled_by_causes
  obtain ⟨hother, -⟩ := (Failure.other g.message).labelled_by_causes
  have hstatus : httpStatus (some g) = 503 := rfl
  exact ⟨hf.trans rfl, (hsort f' hsame).1, hstatus, (hdeadline hstatus).mpr hlate, hother.trans rfl⟩

end Answers

end Failure

end TinyLisp

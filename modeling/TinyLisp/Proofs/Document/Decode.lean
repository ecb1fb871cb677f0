import TinyLisp.Document.Decode

/-!
What decoding gives. Nothing that was noted is forgotten, and the value that is read off a scalar
depends on the document alone, not on what was decoded before.
-/

namespace TinyLisp

namespace Document

/-- The part itself, or the one that a reference leads to. -/
def resolve? (d : Document) : Part → Option Part
  | .reference _ _ target => d.find? target
  | p => some p

/-- What is read off a part that is a scalar, unless it stands for nothing. -/
def scalar? {α : Type} (d : Document) (f : Part → Datum → Option α) (p : Part) : Option α :=
  match d.resolve? p with
  | some (.scalar label content) =>
    match datum? label.tag content with
    | none | some .null => none
    | some v => f (.scalar label content) v
  | _ => none

namespace Decode

variable {α β : Type} {d : Document} {path path' : List Nat} {p q : Part} {st st' : Progress}

theorem exists_of_bind {x : Decode α} {f : α → Decode β} {b : β}
    (h : (x >>= f).run st = some (b, st')) :
    ∃ a st₁, x.run st = some (a, st₁) ∧ (f a).run st₁ = some (b, st') := by
  rw [StateT.run_bind] at h
  obtain ⟨⟨a, st₁⟩, hx, hf⟩ := Option.bind_eq_some_iff.mp h
  exact ⟨a, st₁, hx, hf⟩

section Growth

/-- The action forgets no misfit. -/
def Keeps (x : Decode α) : Prop :=
  ∀ st a st', x.run st = some (a, st') → st.misfits <:+ st'.misfits

theorem keeps_pure (a : α) : Keeps (pure a) := by
  intro st b st' h
  cases h
  exact List.suffix_refl _

theorem keeps_failure : Keeps (failure : Decode α) := by
  intro st a st' h
  cases h

theorem Keeps.bind {x : Decode α} {f : α → Decode β} (hx : Keeps x) (hf : ∀ a, Keeps (f a)) :
    Keeps (x >>= f) := by
  intro st b st' h
  obtain ⟨a, st₁, h₁, h₂⟩ := exists_of_bind h
  exact (hx _ _ _ h₁).trans (hf a _ _ _ h₂)

theorem Keeps.eq_nil {x : Decode α} {a : α} (hx : Keeps x) (h : x.run st = some (a, st'))
    (hfit : st'.misfits = []) : st.misfits = [] := by
  have hsuffix := hx _ _ _ h
  rwa [hfit, List.suffix_nil] at hsuffix

theorem keeps_note (m : Misfit) : Keeps (note m) := by
  intro st u st' h
  cases h
  exact List.suffix_cons m _

theorem keeps_unrepeated (entries : List (Part × Part)) : Keeps (unrepeated entries) := by
  intro st b st' h
  obtain ⟨_, st₁, h₁, h⟩ := exists_of_bind h
  cases h₁
  cases h
  exact List.suffix_append _ _

theorem keeps_visit (path : List Nat) : Keeps (visit path) := by
  apply Keeps.bind
  · intro st u st' h
    cases h
    exact List.suffix_refl _
  · intro u
    apply Keeps.bind
    · intro st u st' h
      cases h
      exact List.suffix_refl _
    · intro st
      split
      · exact keeps_failure
      · exact keeps_pure ()

theorem keeps_follow (d : Document) (path : List Nat) (p : Part) : Keeps (follow d path p) := by
  apply (keeps_visit path).bind
  intro u
  cases p with
  | scalar | sequence | mapping => exact keeps_pure _
  | reference label name target =>
    dsimp only
    cases d.find? target with
    | none =>
      split
      · exact keeps_failure.bind fun _ => keeps_failure
      · exact keeps_failure
    | some q =>
      have hvisit : Keeps (do visit (label.number :: path); return (label.number :: path, q)) :=
        (keeps_visit _).bind fun _ => keeps_pure _
      split
      · exact keeps_failure.bind fun _ => hvisit
      · exact hvisit

theorem keeps_scalarAs (d : Document) (path : List Nat) (p : Part) (wanted : String)
    (f : Part → Datum → Option α) : Keeps (scalarAs d path p wanted f) := by
  have hrefuse (q : Part) : Keeps (do refuse q wanted; return (none : Option α)) :=
    (keeps_note _).bind fun _ => keeps_pure none
  apply (keeps_follow d path p).bind
  rintro ⟨path', q⟩
  cases q with
  | scalar label content =>
    dsimp only
    split
    · exact keeps_failure
    · exact keeps_pure none
    · split
      · exact keeps_pure _
      · exact hrefuse _
  | mapping label entries =>
    apply (keeps_unrepeated entries).bind
    intro b
    dsimp only
    split
    · exact hrefuse _
    · exact keeps_pure none
  | sequence label items => exact hrefuse _
  | reference label name target => exact hrefuse _

end Growth

section Value

theorem resolve?_of_follow (h : (follow d path p).run st = some ((path', q), st')) :
    d.resolve? p = some q := by
  obtain ⟨_, st₁, -, h⟩ := exists_of_bind h
  cases p with
  | scalar | sequence | mapping =>
    cases h
    rfl
  | reference label name target =>
    dsimp only at h
    split at h
    · obtain ⟨_, _, hf, -⟩ := exists_of_bind h
      cases hf
    · cases ht : d.find? target with
      | none =>
        rw [ht] at h
        cases h
      | some r =>
        rw [ht] at h
        obtain ⟨_, st₂, -, h⟩ := exists_of_bind h
        cases h
        exact ht

theorem eq_scalar?_of_scalarAs {wanted : String} {f : Part → Datum → Option α} {a : Option α}
    (h : (scalarAs d path p wanted f).run st = some (a, st')) : a = d.scalar? f p := by
  obtain ⟨⟨_, q⟩, st₁, hq, h⟩ := exists_of_bind h
  have hrefuse {q : Part} {st st' : Progress}
      (h : (do refuse q wanted; return (none : Option α) : Decode _).run st = some (a, st')) :
      a = none := by
    cases h
    rfl
  rw [scalar?, resolve?_of_follow hq]
  cases q with
  | scalar label content =>
    dsimp only at h ⊢
    cases hv : datum? label.tag content with
    | none =>
      rw [hv] at h
      cases h
    | some v =>
      rw [hv] at h
      cases v with
      | null =>
        cases h
        rfl
      | bool | int | float | timestamp | text =>
        dsimp only at h ⊢
        split at h
        · rename_i hf
          cases h
          exact hf.symm
        · rename_i hf
          rw [hf]
          exact hrefuse h
  | mapping label entries =>
    obtain ⟨b, st₂, -, h⟩ := exists_of_bind h
    dsimp only at h
    split at h
    · exact hrefuse h
    · cases h
      rfl
  | sequence label items => exact hrefuse h
  | reference label name target => exact hrefuse h

end Value

end Decode

end Document

end TinyLisp

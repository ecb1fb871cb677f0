import TinyLisp.Flag
import TinyLisp.Proofs.Document.Decode
import TinyLisp.Settings.Layer

/-!
The settings that a document gives: those that its entries name, with the values that stand there.
-/

namespace TinyLisp

/-- What can be set apart from the name of the file. -/
inductive Setting where
  | httpAddr
  | grpcAddr
  | requestTimeout
  | shutdownTimeout
  | maxBodyBytes
  | debug
  deriving DecidableEq, Repr

def Setting.name : Setting → String
  | .httpAddr => "http_addr"
  | .grpcAddr => "grpc_addr"
  | .requestTimeout => "request_timeout"
  | .shutdownTimeout => "shutdown_timeout"
  | .maxBodyBytes => "max_body_bytes"
  | .debug => "debug"

theorem Setting.ofString_name_inj {j k : Setting}
    (h : Text.ofString j.name = Text.ofString k.name) : j = k := by
  revert h
  cases j <;> cases k <;> decide

/-- The value that a layer has for a setting, if it has one. -/
def Layer.get? (l : Layer) : Setting → Option FlagValue
  | .httpAddr => l.httpAddr.map .text
  | .grpcAddr => l.grpcAddr.map .text
  | .requestTimeout => l.requestTimeout.map .duration
  | .shutdownTimeout => l.shutdownTimeout.map .duration
  | .maxBodyBytes => l.maxBodyBytes.map .int64
  | .debug => l.debug.map .bool

namespace Document

/-- The value that a part has as a setting, unless it stands for nothing. -/
def setting? (d : Document) (p : Part) : Setting → Option FlagValue
  | .httpAddr | .grpcAddr => (d.scalar? Datum.text? p).map .text
  | .requestTimeout | .shutdownTimeout => (d.scalar? (fun _ => Datum.duration?) p).map .duration
  | .maxBodyBytes => (d.scalar? (fun _ => Datum.int64?) p).map .int64
  | .debug => (d.scalar? (fun _ => Datum.bool?) p).map .bool

/-- The entry has the name of the setting for its key and the value for its value. -/
def Gives (d : Document) (e : Part × Part) (k : Setting) (v : FlagValue) : Prop :=
  d.scalar? Datum.text? e.1 = some (Text.ofString k.name) ∧ d.setting? e.2 k = some v

/-- The entries of a document that is a mapping. -/
def entries (d : Document) : List (Part × Part) :=
  match d.root with
  | some (.mapping _ entries) => entries
  | _ => []

end Document

namespace Layer

open Document (Part Decode Progress)
open Document.Decode

variable {d : Document} {path : List Nat} {l l' : Layer} {s s' : Entries} {e : Part × Part}
  {done entries : List (Part × Part)} {value : Part} {st st' : Progress}

theorem get?_of_insert {k : Setting}
    (h : (l.insert d path (Text.ofString k.name) value).run st = some (l', st')) (j : Setting) :
    l'.get? j = if j = k then (d.setting? value k).or (l.get? k) else l.get? j := by
  cases k
  all_goals
    simp +decide only [insert, ↓reduceIte] at h
    obtain ⟨v, st₁, hv, h⟩ := exists_of_bind h
    rw [eq_scalar?_of_scalarAs hv] at h
    cases h
    cases j <;> simp [get?, Document.setting?, Option.map_or]

theorem keeps_insert (l : Layer) (d : Document) (path : List Nat) (name : Text) (value : Part) :
    Keeps (l.insert d path name value) := by
  rw [insert]
  repeat'
    split
    · exact (keeps_scalarAs d path value _ _).bind fun _ => keeps_pure _
  exact keeps_pure l

theorem isOneOf_names_iff {name : Text} :
    name.isOneOf names = true ↔ ∃ k : Setting, name = Text.ofString k.name := by
  constructor
  · intro h
    rw [Text.isOneOf, names] at h
    simp only [List.any_cons, List.any_nil, Bool.or_false, Bool.or_eq_true, decide_eq_true_eq] at h
    rcases h with h | h | h | h | h | h
    · exact ⟨.httpAddr, h.symm⟩
    · exact ⟨.grpcAddr, h.symm⟩
    · exact ⟨.requestTimeout, h.symm⟩
    · exact ⟨.shutdownTimeout, h.symm⟩
    · exact ⟨.maxBodyBytes, h.symm⟩
    · exact ⟨.debug, h.symm⟩
  · rintro ⟨k, rfl⟩
    cases k <;> decide

theorem keeps_addEntry (d : Document) (path : List Nat) (s : Entries) (e : Part × Part) :
    Keeps (addEntry d path s e) := by
  rw [addEntry]
  dsimp only
  split
  · exact keeps_pure _
  · apply (keeps_scalarAs d path e.1 _ _).bind
    intro name?
    cases name? with
    | none => exact keeps_pure _
    | some name =>
      dsimp only
      split
      · exact keeps_pure _
      · split
        · exact keeps_pure _
        · split
          · exact (keeps_note _).bind fun _ => keeps_pure _
          · exact (keeps_insert _ d path name e.2).bind fun _ => keeps_pure _

/-- What the entries of a mapping come to when some of them are taken in and none of them merges
another mapping in. Which settings they give is told only if none of them was refused. -/
structure Entries.Sums (d : Document) (done : List (Part × Part)) (s : Entries) (st : Progress) :
    Prop where
  settled : s.settled = none
  merged : s.merged = none
  given : st.misfits = [] → ∀ k v, s.layer.get? k = some v → Text.ofString k.name ∈ s.given
  layer : st.misfits = [] → ∀ k v, s.layer.get? k = some v ↔ ∃ e ∈ done, d.Gives e k v

namespace Entries.Sums

theorem empty (d : Document) (st : Progress) :
    Sums d [] { layer := {}, settled := none } st := by
  have hempty (k : Setting) (v : FlagValue) : get? {} k ≠ some v := by
    cases k <;> exact (Option.some_ne_none _).symm
  refine ⟨rfl, rfl, fun _ k v hv => absurd hv (hempty k v), fun _ k v => ?_⟩
  simp [hempty]

theorem refuse (hs : s.Sums d done st) (hfit : st'.misfits ≠ []) : s.Sums d entries st' :=
  ⟨hs.settled, hs.merged, fun h => absurd h hfit, fun h => absurd h hfit⟩

theorem skip (hs : s.Sums d done st) (hfit : st'.misfits = [] → st.misfits = [])
    (hskip : ∀ k v, ¬ d.Gives e k v) : s.Sums d (done ++ [e]) st' where
  settled := hs.settled
  merged := hs.merged
  given h := hs.given (hfit h)
  layer h k v := by simp [or_and_right, exists_or, hskip, hs.layer (hfit h)]

theorem insert {k : Setting} {st₁ : Progress} (hs : s.Sums d done st)
    (hfit : st'.misfits = [] → st.misfits = [])
    (hname : d.scalar? Document.Datum.text? e.1 = some (Text.ofString k.name))
    (hopen : Text.ofString k.name ∉ s.given)
    (hl : (s.layer.insert d path (Text.ofString k.name) e.2).run st₁ = some (l, st')) :
    Sums d (done ++ [e]) { s with layer := l, given := Text.ofString k.name :: s.given } st' where
  settled := hs.settled
  merged := hs.merged
  given h j v hv := by
    rw [get?_of_insert hl] at hv
    by_cases hj : j = k
    · exact hj ▸ List.mem_cons_self
    · rw [if_neg hj] at hv
      exact List.mem_cons_of_mem _ (hs.given (hfit h) j v hv)
  layer h j v := by
    rw [get?_of_insert hl]
    by_cases hj : j = k
    · subst hj
      have hunset (v : FlagValue) : s.layer.get? j ≠ some v := mt (hs.given (hfit h) j v) hopen
      have hbefore : ¬ ∃ e ∈ done, d.Gives e j v := mt (hs.layer (hfit h) j v).mpr (hunset v)
      rw [if_pos rfl, Option.eq_none_iff_forall_ne_some.mpr hunset, Option.or_none]
      simp only [List.mem_append, List.mem_singleton, or_and_right, exists_or, hbefore, false_or,
        exists_eq_left]
      exact (and_iff_right hname).symm
    · have hother : ¬ d.Gives e j v := by
        intro hgives
        rw [hgives.1] at hname
        exact hj (Setting.ofString_name_inj (Option.some.inj hname))
      simp [hj, hs.layer (hfit h), or_and_right, exists_or, hother]

theorem addEntry (hs : s.Sums d done st) (hkey : isMerge e.1 = false)
    (h : (addEntry d path s e).run st = some (s', st')) : s'.Sums d (done ++ [e]) st' := by
  have hfit : st'.misfits = [] → st.misfits = [] := (keeps_addEntry d path s e).eq_nil h
  simp only [Layer.addEntry, hkey, Bool.false_eq_true, ↓reduceIte] at h
  obtain ⟨name?, st₁, htext, h⟩ := exists_of_bind h
  have hname := eq_scalar?_of_scalarAs htext
  cases name? with
  | none =>
    cases h
    apply hs.skip hfit
    intro k v hgives
    rw [hgives.1] at hname
    cases hname
  | some name =>
    simp only [hs.settled, Option.any_none, Bool.false_eq_true, ↓reduceIte, Option.map_none] at h
    by_cases hk : ∃ k : Setting, name = Text.ofString k.name
    · obtain ⟨k, rfl⟩ := hk
      rw [isOneOf_names_iff.mpr ⟨k, rfl⟩] at h
      by_cases hgiven : Text.ofString k.name ∈ s.given
      · simp only [List.contains_iff_mem.mpr hgiven, Bool.not_true, Bool.false_eq_true, ↓reduceIte]
          at h
        cases h
        rw [← hs.settled]
        exact hs.refuse (List.cons_ne_nil _ _)
      · simp only [List.contains_iff_mem, hgiven, Bool.not_true, Bool.false_eq_true, ↓reduceIte]
          at h
        obtain ⟨l, st₂, hl, h⟩ := exists_of_bind h
        cases h
        rw [← hs.settled]
        exact hs.insert hfit hname.symm hgiven hl
    · rw [Bool.eq_false_iff.mpr (mt isOneOf_names_iff.mp hk)] at h
      cases h
      rw [← hs.settled]
      apply hs.skip hfit
      intro k v hgives
      rw [hgives.1] at hname
      exact hk ⟨k, Option.some.inj hname⟩

theorem addEntries (hs : s.Sums d done st) (hkeys : ∀ e ∈ entries, isMerge e.1 = false)
    (h : (entries.foldlM (Layer.addEntry d path) s).run st = some (s', st')) :
    s'.Sums d (done ++ entries) st' := by
  induction entries generalizing done s st with
  | nil =>
    cases h
    rwa [List.append_nil]
  | cons e entries ih =>
    rw [List.foldlM_cons] at h
    obtain ⟨s₁, st₁, h₁, h⟩ := exists_of_bind h
    have hs₁ := hs.addEntry (hkeys e List.mem_cons_self) h₁
    rw [List.append_cons]
    exact ih hs₁ (fun e he => hkeys e (List.mem_cons_of_mem _ he)) h

end Entries.Sums

theorem get?_of_addMapping {fuel : Nat} {r : Layer × Option (List Text)}
    (hkeys : ∀ e ∈ entries, isMerge e.1 = false)
    (h : (addMapping fuel d path entries {} none).run st = some (r, st'))
    (hfit : st'.misfits = []) (k : Setting) (v : FlagValue) :
    r.1.get? k = some v ↔ ∃ e ∈ entries, d.Gives e k v := by
  cases fuel with
  | zero => cases h
  | succ fuel =>
    obtain ⟨b, st₁, hrepeats, h⟩ := exists_of_bind h
    obtain ⟨_, st₂, hnoted, hb⟩ := exists_of_bind hrepeats
    cases hnoted
    cases hb
    cases hms : Document.repeats entries with
    | cons m ms =>
      -- Repeated keys are noted, so there is a misfit.
      rw [hms] at h
      cases h
      simp at hfit
    | nil =>
      rw [hms] at h
      obtain ⟨s, st₂, hrun, h⟩ := exists_of_bind h
      have hs := (Entries.Sums.empty d _).addEntries hkeys hrun
      rw [hs.merged] at h
      cases h
      exact hs.layer hfit k v

theorem get?_of_decode {label : Document.Label} (hkeys : ∀ e ∈ entries, isMerge e.1 = false)
    (h : (decode d (.mapping label entries)).run st = some (l, st')) (hfit : st'.misfits = [])
    (k : Setting) (v : FlagValue) : l.get? k = some v ↔ ∃ e ∈ entries, d.Gives e k v := by
  obtain ⟨_, st₁, -, h⟩ := exists_of_bind h
  obtain ⟨_, st₂, -, h⟩ := exists_of_bind h
  obtain ⟨r, st₃, hr, h⟩ := exists_of_bind h
  cases h
  exact get?_of_addMapping hkeys hr hfit k v

/-- The settings of a document are those that its entries give. -/
theorem get?_of_ofDocument (hkeys : ∀ e ∈ d.entries, isMerge e.1 = false)
    (h : ofDocument d = .ok l) (k : Setting) (v : FlagValue) :
    l.get? k = some v ↔ ∃ e ∈ d.entries, d.Gives e k v := by
  have hempty : l = {} → d.entries = [] →
      (l.get? k = some v ↔ ∃ e ∈ d.entries, d.Gives e k v) := by
    rintro rfl hentries
    rw [hentries]
    exact (Entries.Sums.empty d {}).layer rfl k v
  rw [ofDocument] at h
  cases hroot : d.root with
  | none =>
    rw [hroot] at h
    cases h
    exact hempty rfl (by rw [Document.entries, hroot])
  | some root =>
    rw [hroot] at h
    cases hrun : (decode d root).run {} with
    | none =>
      simp only [hrun] at h
      cases h
    | some r =>
      obtain ⟨l', st'⟩ := r
      simp only [hrun] at h
      split at h
      · cases h
        rename_i hfit
        cases root with
        | mapping label entries =>
          have hentries : d.entries = entries := by rw [Document.entries, hroot]
          rw [hentries] at hkeys ⊢
          exact get?_of_decode hkeys hrun (List.isEmpty_iff.mp hfit) k v
        | scalar | sequence | reference =>
          obtain ⟨_, st₁, -, hrun⟩ := exists_of_bind hrun
          obtain ⟨_, st₂, -, hrun⟩ := exists_of_bind hrun
          cases hrun
          exact hempty rfl (by rw [Document.entries, hroot])
      · cases h

end Layer

end TinyLisp

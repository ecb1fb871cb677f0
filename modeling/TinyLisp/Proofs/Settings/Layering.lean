import TinyLisp.Proofs.Settings.Entries
import TinyLisp.Settings.Flags

/-!
Flags over the file over the defaults. Settings are looked at one by one, each under its name, so
that a value in the place of another would show. Main statement: a command line gives settings
exactly if the file it names can be read and is valid over the defaults, and what results is valid
with the flags too; each setting is then the last value of its flag, else that of the file, else
the default.
-/

namespace TinyLisp

/-- The two values are of one type. -/
def FlagValue.SameKind : FlagValue → FlagValue → Prop
  | .text _, .text _ | .duration _, .duration _ | .int64 _, .int64 _ | .bool _, .bool _ => True
  | _, _ => False

namespace Flag

variable {flags : List Flag} {given : List (String × FlagValue)} {args rest : List Text}
  {f : Flag} {name value : Text} {key : String} {v : FlagValue} {r : Reading}

/-- The value is given under a name of a flag that takes values of its type. -/
def Fits (flags : List Flag) (given : String × FlagValue) : Prop :=
  ∃ f ∈ flags, given.1 ∈ f.names ∧ given.2.SameKind f.default

theorem sameKind_of_readValue (h : f.readValue name value = .ok v) : v.SameKind f.default := by
  rw [readValue] at h
  cases hd : f.default
  all_goals
    rw [hd] at h
    dsimp only at h
  case text =>
    cases h
    trivial
  all_goals
    split at h
    · cases h
      trivial
    · cases h

theorem sameKind_of_isBool {b : Bool} (h : f.isBool = true) :
    (FlagValue.bool b).SameKind f.default := by
  rw [isBool] at h
  split at h
  · rename_i hd
    rw [hd]
    trivial
  · cases h

theorem mem_of_find? (h : find? flags name = some (f, key)) : f ∈ flags ∧ key ∈ f.names := by
  obtain ⟨g, hg, h⟩ := List.exists_of_findSome?_eq_some h
  obtain ⟨n, hn, h⟩ := Option.map_eq_some_iff.mp h
  cases h
  exact ⟨hg, List.mem_of_find?_eq_some hn⟩

theorem fits_of_read (h : ∀ p ∈ given, Fits flags p) :
    ∀ p ∈ (read flags given args).given, Fits flags p := by
  fun_induction read flags given args with
  | case1 | case2 | case3 | case4 | case5 | case6 | case9 | case10 => exact h
  | case7 given arg name f key hf text rest v hv harg ih =>
    obtain ⟨hmem, hkey⟩ := mem_of_find? hf
    exact ih (List.forall_mem_cons.mpr ⟨⟨f, hmem, hkey, sameKind_of_readValue hv⟩, h⟩)
  | case8 given arg name f key hf rest hbool harg ih =>
    obtain ⟨hmem, hkey⟩ := mem_of_find? hf
    exact ih (List.forall_mem_cons.mpr ⟨⟨f, hmem, hkey, sameKind_of_isBool hbool⟩, h⟩)
  | case11 given arg name f key hf hbool text rest v hv harg ih =>
    obtain ⟨hmem, hkey⟩ := mem_of_find? hf
    exact ih (List.forall_mem_cons.mpr ⟨⟨f, hmem, hkey, sameKind_of_readValue hv⟩, h⟩)

theorem eq_read_of_ask (h : ask flags args = .action r rest) :
    r = read (flags ++ [help]) [] args := by
  rw [ask] at h
  split at h
  · cases h
  · split at h
    · cases h
    · split at h
      · cases h
      · cases h
        rfl

/-- Only flags of a command are given to it, and only values of their types. -/
theorem fits_of_value? (h : ask flags args = .action r rest) (hv : r.value? key = some v) :
    Fits (flags ++ [help]) (key, v) := by
  obtain ⟨before, after, hgiven, -⟩ := List.lookup_eq_some_iff.mp hv
  have hfits : ∀ p ∈ r.given, Fits (flags ++ [help]) p := by
    rw [eq_read_of_ask h]
    exact fits_of_read (by simp)
  apply hfits
  rw [hgiven]
  exact List.mem_append_right before List.mem_cons_self

end Flag

namespace Settings

variable {args rest : List Text} {r : Flag.Reading} {l : Layer} {s base : Settings} {path : Text}
  {content : Except FileFault Text} {k : Setting} {v : FlagValue}

def get (s : Settings) : Setting → FlagValue
  | .httpAddr => .text s.httpAddr
  | .grpcAddr => .text s.grpcAddr
  | .requestTimeout => .duration s.requestTimeout
  | .shutdownTimeout => .duration s.shutdownTimeout
  | .maxBodyBytes => .int64 s.maxBodyBytes
  | .debug => .bool s.debug

theorem ext_get (hname : s.fileName = base.fileName) (h : ∀ k, s.get k = base.get k) :
    s = base := by
  obtain ⟨fileName, httpAddr, grpcAddr, requestTimeout, shutdownTimeout, maxBodyBytes, debug⟩ := s
  cases hname
  cases h .httpAddr
  cases h .grpcAddr
  cases h .requestTimeout
  cases h .shutdownTimeout
  cases h .maxBodyBytes
  cases h .debug
  rfl

theorem get_onto (l : Layer) (s : Settings) (k : Setting) :
    (l.onto s).get k = (l.get? k).getD (s.get k) := by
  cases k <;> exact (Option.getD_map _ _ _).symm

/-- A flag with the name of a setting has its default. The time to stop has no flag. -/
theorem default_of_mem_flags {f : Flag} (hf : f ∈ flags ++ [Flag.help]) (hk : k.name ∈ f.names) :
    k ≠ .shutdownTimeout ∧ f.default = default.get k := by
  revert f
  cases k <;> decide

theorem kind_of_value? (h : Flag.ask flags args = .action r rest) (hv : r.value? k.name = some v) :
    k ≠ .shutdownTimeout ∧ v.SameKind (default.get k) := by
  obtain ⟨f, hf, hname, hkind⟩ := Flag.fits_of_value? h hv
  obtain ⟨hk, hdefault⟩ := default_of_mem_flags hf hname
  exact ⟨hk, hdefault ▸ hkind⟩

theorem get?_flagLayer (h : Flag.ask flags args = .action r rest) (k : Setting) :
    (flagLayer r).get? k = r.value? k.name := by
  cases hv : r.value? k.name with
  | none =>
    cases k
    case shutdownTimeout => rfl
    all_goals
      simp only [Setting.name] at hv
      simp only [Layer.get?, flagLayer, Flag.Reading.text?, Flag.Reading.duration?,
        Flag.Reading.int64?, Flag.Reading.bool?, hv, Option.map_none]
  | some v =>
    obtain ⟨hk, hkind⟩ := kind_of_value? h hv
    cases k
    case shutdownTimeout => exact absurd rfl hk
    all_goals
      simp only [Setting.name] at hv
      cases v <;> cases hkind
      simp only [Layer.get?, flagLayer, Flag.Reading.text?, Flag.Reading.duration?,
        Flag.Reading.int64?, Flag.Reading.bool?, hv, Option.map_some]

theorem default_of_config :
    ∀ f ∈ flags ++ [Flag.help], "config" ∈ f.names → f.default = .text [] := by
  decide

theorem exists_text_of_config (h : Flag.ask flags args = .action r rest)
    (hv : r.value? "config" = some v) : ∃ path, v = .text path := by
  obtain ⟨f, hf, hname, hkind⟩ := Flag.fits_of_value? h hv
  have hdefault : f.default = .text [] := default_of_config f hf hname
  rw [hdefault] at hkind
  cases v with
  | text path => exact ⟨path, rfl⟩
  | duration | int64 | bool => cases hkind

theorem check_eq_ok_iff {fault : List SettingsProblem → SettingsFault} :
    base.check fault = .ok s ↔ s = base ∧ s.Valid := by
  rw [check]
  constructor
  · intro h
    split at h
    · cases h
      exact ⟨rfl, ‹_›⟩
    · cases h
  · rintro ⟨rfl, hvalid⟩
    exact if_pos hvalid

theorem readLayer_eq_ok_iff :
    readLayer path content = .ok l ↔ ∃ text d, content = .ok text ∧
      Document.read? text = some d ∧ Layer.ofDocument d = .ok l := by
  constructor
  · intro h
    unfold readLayer at h
    cases content with
    | error cause => cases h
    | ok text =>
      dsimp only at h
      cases hd : Document.read? text with
      | none =>
        rw [hd] at h
        cases h
      | some d =>
        rw [hd] at h
        cases hl : Layer.ofDocument d with
        | error fault =>
          simp only [hl] at h
          cases h
        | ok l' =>
          simp only [hl] at h
          cases h
          exact ⟨text, d, rfl, hd, hl⟩
  · rintro ⟨text, d, rfl, hd, hl⟩
    unfold readLayer
    simp only [hd, hl]
    rfl

theorem bind_check_eq_ok_iff {α : Type} {x : Except SettingsFault α} {f : α → Settings}
    {fault : List SettingsProblem → SettingsFault} :
    (x >>= fun a => (f a).check fault) = .ok s ↔ ∃ a, x = .ok a ∧ s = f a ∧ s.Valid := by
  cases x with
  | error e =>
    constructor
    · rintro ⟨⟩
    · rintro ⟨a, ⟨⟩, -⟩
  | ok a =>
    constructor
    · intro h
      exact ⟨a, rfl, check_eq_ok_iff.mp h⟩
    · rintro ⟨_, ⟨⟩, h⟩
      exact check_eq_ok_iff.mpr h

/-- The settings are what is laid over the defaults, and the defaults where nothing is. -/
def Overlays (s : Settings) (upper : Setting → Option FlagValue) : Prop :=
  ∀ k, s.get k = (upper k).getD (default.get k)

theorem eq_onto_default_iff :
    s = { l.onto default with fileName := path } ↔ s.fileName = path ∧ s.Overlays l.get? := by
  constructor
  · rintro rfl
    exact ⟨rfl, get_onto l default⟩
  · rintro ⟨hname, hs⟩
    exact ext_get hname fun k => (hs k).trans (get_onto l default k).symm

theorem eq_onto_iff {lower : Setting → Option FlagValue} (hbase : base.Overlays lower) :
    s = l.onto base ↔ s.fileName = base.fileName ∧ s.Overlays fun k => (l.get? k).or (lower k) := by
  have hget (k : Setting) :
      (l.onto base).get k = ((l.get? k).or (lower k)).getD (default.get k) := by
    rw [get_onto, hbase k, Option.getD_or]
  constructor
  · rintro rfl
    exact ⟨rfl, hget⟩
  · rintro ⟨hname, hs⟩
    exact ext_get hname fun k => (hs k).trans (hget k).symm

theorem load_eq_ok_iff :
    load path content = .ok s ↔ ∃ lower, readLayer path content = .ok lower ∧
      (s.fileName = path ∧ s.Overlays lower.get?) ∧ s.Valid := by
  rw [load, bind_check_eq_ok_iff]
  simp only [eq_onto_default_iff]

theorem resolve_nil_eq_ok_iff :
    resolve l [] content = .ok s ↔ (s.fileName = [] ∧ s.Overlays l.get?) ∧ s.Valid := by
  rw [← eq_onto_default_iff]
  exact check_eq_ok_iff

/-- The file has to be valid without the flags, and so do the settings with them. -/
theorem resolve_eq_ok_iff (hpath : path ≠ []) :
    resolve l path content = .ok s ↔ ∃ lower, readLayer path content = .ok lower ∧
      (∃ base : Settings, base.Overlays lower.get? ∧ base.Valid) ∧
      s.fileName = path ∧ (s.Overlays fun k => (l.get? k).or (lower.get? k)) ∧ s.Valid := by
  rw [resolve, if_neg hpath, bind_check_eq_ok_iff]
  constructor
  · rintro ⟨base, hload, hs, hvalid⟩
    obtain ⟨lower, hlower, ⟨hname, hbase⟩, hbasevalid⟩ := load_eq_ok_iff.mp hload
    obtain ⟨hsname, hover⟩ := (eq_onto_iff hbase).mp hs
    exact ⟨lower, hlower, ⟨base, hbase, hbasevalid⟩, hsname.trans hname, hover, hvalid⟩
  · rintro ⟨lower, hlower, ⟨base, hbase, hbasevalid⟩, hname, hover, hvalid⟩
    -- The name of the file makes no difference to whether settings are valid.
    have hnamed : ({ base with fileName := path } : Settings).Overlays lower.get? := hbase
    have hload : load path content = .ok { base with fileName := path } :=
      load_eq_ok_iff.mpr ⟨lower, hlower, ⟨rfl, hnamed⟩, hbasevalid⟩
    exact ⟨_, hload, (eq_onto_iff hnamed).mpr ⟨hname, hover⟩, hvalid⟩

theorem flagFile_of_config (hv : r.value? "config" = some (.text path)) : flagFile r = path := by
  rw [flagFile, Flag.Reading.text?, hv]
  rfl

theorem flagFile_of_no_config (hv : r.value? "config" = none) : flagFile r = [] := by
  rw [flagFile, Flag.Reading.text?, hv]
  rfl

/-- A setting is what its flag says, else what the file says, else the default. The file and the
result have to be valid each; where no file is named only the result has to be. Entries of a file
that are merged in from other places of it are in its layer too. -/
theorem ofCommandLine_layers (h : Flag.ask flags args = .action r rest)
    (file : Text → Except FileFault Text) :
    (r.value? "config" = none ∨ ∃ path, r.value? "config" = some (.text path)) ∧
    (∀ path, path ≠ [] → r.value? "config" = some (.text path) → ∀ s,
      ofCommandLine r file = .ok s ↔ ∃ text d layer, file path = .ok text ∧
        Document.read? text = some d ∧ Layer.ofDocument d = .ok layer ∧
        (∃ base : Settings, base.Overlays layer.get? ∧ base.Valid) ∧
        s.fileName = path ∧ (s.Overlays fun k => (r.value? k.name).or (layer.get? k)) ∧ s.Valid) ∧
    (r.value? "config" = none ∨ r.value? "config" = some (.text []) → ∀ s,
      ofCommandLine r file = .ok s ↔
        s.fileName = [] ∧ (s.Overlays fun k => r.value? k.name) ∧ s.Valid) ∧
    r.value? Setting.shutdownTimeout.name = none ∧
    (∀ d layer, Layer.ofDocument d = .ok layer →
      (∀ e ∈ d.entries, Document.Decode.isMerge e.1 = false) →
      ∀ k v, layer.get? k = some v ↔ ∃ e ∈ d.entries, d.Gives e k v) := by
  have hflags : (flagLayer r).get? = fun k => r.value? k.name := funext (get?_flagLayer h)
  refine ⟨?_, ?_, ?_, ?_, ?_⟩
  · cases hv : r.value? "config" with
    | none => exact .inl rfl
    | some v =>
      obtain ⟨path, rfl⟩ := exists_text_of_config h hv
      exact .inr ⟨path, rfl⟩
  · intro path hpath hv s
    rw [ofCommandLine, flagFile_of_config hv, resolve_eq_ok_iff hpath, hflags]
    simp only [readLayer_eq_ok_iff]
    constructor
    · rintro ⟨layer, ⟨text, d, htext, hd, hlayer⟩, hs⟩
      exact ⟨text, d, layer, htext, hd, hlayer, hs⟩
    · rintro ⟨text, d, layer, htext, hd, hlayer, hs⟩
      exact ⟨layer, ⟨text, d, htext, hd, hlayer⟩, hs⟩
  · intro hv s
    have hfile : flagFile r = [] := hv.elim flagFile_of_no_config flagFile_of_config
    rw [ofCommandLine, hfile, resolve_nil_eq_ok_iff, hflags, and_assoc]
  · exact (get?_flagLayer h .shutdownTimeout).symm
  · intro d layer hlayer hkeys
    exact Layer.get?_of_ofDocument hkeys hlayer

/-- An empty address and a `false` are given, and prevail over the file. -/
theorem ofCommandLine_layers_empty_flags :
    ∃ r, Flag.ask flags ["--config", "lisp.yml", "-http_addr", "", "--debug=false"] =
        .action r [] ∧
      ofCommandLine r (fun _ => .ok "http_addr: ':1'\nshutdown_timeout: 1s\ndebug: true") =
        .ok { default with
          fileName := "lisp.yml"
          httpAddr := []
          shutdownTimeout := .seconds 1 } := by
  let r : Flag.Reading :=
    ⟨[("debug", .bool false), ("http_addr", .text []), ("config", .text "lisp.yml")], .ok []⟩
  let layer : Layer :=
    { httpAddr := some ":1", shutdownTimeout := some (.seconds 1), debug := some true }
  have hask : Flag.ask flags ["--config", "lisp.yml", "-http_addr", "", "--debug=false"] =
      .action r [] := by
    -- Reading goes by well-founded recursion, which `rfl` alone does not unfold.
    with_unfolding_all rfl
  have hread : ((Document.read? "http_addr: ':1'\nshutdown_timeout: 1s\ndebug: true").bind
      fun d => (Layer.ofDocument d).toOption) = some layer := by
    decide +kernel
  obtain ⟨d, hd, hoption⟩ := Option.bind_eq_some_iff.mp hread
  have hlayer : Layer.ofDocument d = .ok layer := by
    cases hl : Layer.ofDocument d with
    | error fault =>
      rw [hl] at hoption
      cases hoption
    | ok l =>
      rw [hl] at hoption
      exact congrArg Except.ok (Option.some.inj hoption)
  refine ⟨r, hask, ((ofCommandLine_layers hask _).2.1 "lisp.yml" (by decide) rfl _).mpr ?_⟩
  refine ⟨_, d, layer, rfl, hd, hlayer, ⟨layer.onto default, get_onto layer default, by decide⟩,
    rfl, ?_, by decide⟩
  intro k
  cases k <;> rfl

end Settings

end TinyLisp

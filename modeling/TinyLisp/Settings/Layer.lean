import TinyLisp.Document.Decode
import TinyLisp.Settings.Basic

/-!
Settings in layers. A layer gives some of the settings; laid over others it replaces those and
leaves the rest.
-/

namespace TinyLisp

structure Layer where
  httpAddr : Option Text := none
  grpcAddr : Option Text := none
  requestTimeout : Option Duration := none
  shutdownTimeout : Option Duration := none
  maxBodyBytes : Option Int64 := none
  debug : Option Bool := none
  deriving DecidableEq, Repr

namespace Layer

/-- The settings below, except where the layer gives its own. -/
def onto (l : Layer) (s : Settings) : Settings where
  fileName := s.fileName
  httpAddr := l.httpAddr.getD s.httpAddr
  grpcAddr := l.grpcAddr.getD s.grpcAddr
  requestTimeout := l.requestTimeout.getD s.requestTimeout
  shutdownTimeout := l.shutdownTimeout.getD s.shutdownTimeout
  maxBodyBytes := l.maxBodyBytes.getD s.maxBodyBytes
  debug := l.debug.getD s.debug

@[simp] theorem empty_onto (s : Settings) : onto {} s = s := rfl

open Document (Part Decode)

/-- The name of what a document of settings is. -/
def owner : String := "config.Config"

/-- The names of the settings that a document can give. -/
def names : List String :=
  ["http_addr", "grpc_addr", "request_timeout", "shutdown_timeout", "max_body_bytes", "debug"]

/-- The layer with the setting of a name. What stands for nothing changes nothing. -/
def insert (l : Layer) (d : Document) (path : List Nat) (name : Text) (value : Part) :
    Decode Layer := do
  if name = ("http_addr" : Text) then
    let v ← Decode.text d path value
    return { l with httpAddr := v <|> l.httpAddr }
  else if name = ("grpc_addr" : Text) then
    let v ← Decode.text d path value
    return { l with grpcAddr := v <|> l.grpcAddr }
  else if name = ("request_timeout" : Text) then
    let v ← Decode.duration d path value
    return { l with requestTimeout := v <|> l.requestTimeout }
  else if name = ("shutdown_timeout" : Text) then
    let v ← Decode.duration d path value
    return { l with shutdownTimeout := v <|> l.shutdownTimeout }
  else if name = ("max_body_bytes" : Text) then
    let v ← Decode.int64 d path value
    return { l with maxBodyBytes := v <|> l.maxBodyBytes }
  else if name = ("debug" : Text) then
    let v ← Decode.bool d path value
    return { l with debug := v <|> l.debug }
  else return l

/-- What the entries of a mapping come to. -/
structure Entries where
  layer : Layer
  /-- The names that are settled for the mappings whose entries are merged in, if any are. -/
  settled : Option (List Text)
  /-- The settings that the mapping itself gave. -/
  given : List Text := []
  /-- The value of the last merge key. -/
  merged : Option Part := none

/-- Takes in one entry. Keys that name no setting are ignored, and so are names that are settled;
no setting may be given twice. -/
def addEntry (d : Document) (path : List Nat) (s : Entries) (entry : Part × Part) :
    Decode Entries := do
  let (key, value) := entry
  if Decode.isMerge key then return { s with merged := some value }
  match ← Decode.text d path key with
  | none => return s
  | some name =>
    if s.settled.any (·.contains name) then return s
    let s := { s with settled := s.settled.map (name :: ·) }
    if !name.isOneOf names then return s
    if s.given.contains name then
      Decode.note (.repeatedField key.line name owner)
      return s
    return { s with layer := ← s.layer.insert d path name value, given := name :: s.given }

mutual

/-- Lays the entries of a mapping over a layer. Those that are merged in come last, where they
settle only what is left open. -/
def addMapping (fuel : Nat) (d : Document) (path : List Nat) (entries : List (Part × Part))
    (l : Layer) (settled : Option (List Text)) : Decode (Layer × Option (List Text)) :=
  match fuel with
  | 0 => failure
  | fuel + 1 => do
    if !(← Decode.unrepeated entries) then return (l, settled)
    let s ← entries.foldlM (addEntry d path) { layer := l, settled := settled }
    match s.merged with
    | none => return (s.layer, s.settled)
    | some value =>
      let names ← match s.settled with
        | some names => pure names
        | none => Decode.keyNames (d.size * d.size + 4) d path entries
      match Decode.mergedParts? d value with
      | none => failure
      | some ps =>
        let (l, names) ← addMerged fuel d path ps s.layer names
        return (l, s.settled.map fun _ => names)
termination_by structural fuel

/-- Lays the entries of some mappings over a layer, the first of them first. -/
def addMerged (fuel : Nat) (d : Document) (path : List Nat) (ps : List Part) (l : Layer)
    (settled : List Text) : Decode (Layer × List Text) :=
  match fuel, ps with
  | 0, _ => failure
  | _, [] => return (l, settled)
  | fuel + 1, p :: ps => do
    match ← Decode.follow d path p with
    | (path', .mapping _ entries) =>
      let (l, names) ← addMapping fuel d path' entries l (some settled)
      addMerged fuel d path ps l (names.getD settled)
    | _ => failure
termination_by structural fuel

end

/-- Decodes the tree of a document: a mapping from names to values, or what stands for nothing. -/
def decode (d : Document) (root : Part) : Decode Layer := do
  Decode.visit []
  match root with
  | .mapping _ entries =>
    Decode.visit []
    return (← addMapping (d.size * d.size + 4) d [] entries {} none).1
  | p =>
    let _ ← Decode.scalarAs (α := Unit) d [] p owner fun _ _ => none
    return {}

/-- Why a document gives no settings. -/
inductive Fault where
  /-- No sense can be made of it. -/
  | broken
  | misfits (misfits : List Misfit)
  deriving DecidableEq, Repr

/-- The settings that a document gives. -/
def ofDocument (d : Document) : Except Fault Layer :=
  match d.root with
  | none => .ok {}
  | some root =>
    match (decode d root).run {} with
    | none => .error .broken
    | some (l, p) => if p.misfits.isEmpty then .ok l else .error (.misfits p.misfits.reverse)

end Layer

end TinyLisp

import TinyLisp.Text.Basic

/-!
Files by name, and how a path leads to one.
-/

namespace TinyLisp

/-- Why nothing can be read at a path. -/
inductive FileFault where
  | missing
  | isDirectory
  | notDirectory
  | nameTooLong
  | invalidName
  deriving DecidableEq, Repr

def FileFault.message (f : FileFault) (path : Text) : Text :=
  match f with
  | .missing => "open " ++ path ++ ": no such file or directory"
  | .isDirectory => "read " ++ path ++ ": is a directory"
  | .notDirectory => "open " ++ path ++ ": not a directory"
  | .nameTooLong => "open " ++ path ++ ": file name too long"
  | .invalidName => "open " ++ path ++ ": invalid argument"

/-- The directory where the program was started: paths of files, and what the files hold. -/
structure Directory where
  files : List (Text × Text)

namespace Directory

def slash : UInt8 := 47

/-- The names that a path goes through. A name left out and a single dot lead nowhere. -/
def steps (path : Text) : List Text :=
  (path.split slash).filter fun name => name ≠ [] ∧ name ≠ ("." : Text)

/-- Whether a path may end at a directory only. -/
def endsOpen (path : Text) : Bool :=
  match (path.split slash).getLast? with
  | some name => name = [] ∨ name = ("." : Text)
  | none => true

/-- What stands at a place. -/
inductive Entry where
  | directory
  | file (content : Text)
  deriving DecidableEq, Repr

/-- The names that lead from the root to the directory itself. Its own name is not known, so that
no path can go through it: a dot stands for it. -/
def home : List Text := ["tmp", "."]

/-- The names that lead to a file without content. -/
def emptyFile : List Text := ["dev", "null"]

/-- The directories that every system has below its root. -/
def systemDirectories : List String :=
  ["bin", "boot", "dev", "etc", "home", "lib", "media", "mnt", "opt", "proc", "root", "run", "sbin",
    "srv", "sys", "tmp", "usr", "var"]

/-- What stands at the end of some names that lead from the root. -/
def entry? (d : Directory) (place : List Text) : Option Entry :=
  match place with
  | [] => some .directory
  | [name] => if name.isOneOf systemDirectories then some .directory else none
  | _ =>
    if place = emptyFile then some (.file [])
    else if home.isPrefixOf place then
      let names := place.drop home.length
      match d.files.find? fun file => steps file.1 = names with
      | some file => some (.file file.2)
      | none =>
        if names = [] ∨ d.files.any fun file => names.isPrefixOf (steps file.1) then some .directory
        else none
    else none

/-- What some names lead to from a place. Each must be the name of something in a directory, or go
one directory back. -/
def walk (d : Directory) (place : List Text) : List Text → Except FileFault Entry
  | [] => (d.entry? place).elim (.error .missing) .ok
  | name :: names =>
    match d.entry? place with
    | none => .error .missing
    | some (.file _) => .error .notDirectory
    | some .directory =>
      if name = (".." : Text) then walk d place.dropLast names
      else if 255 < name.length then .error .nameTooLong
      else walk d (place ++ [name]) names

/-- The content of the file at a path, which leads from the root if it begins with a slash. -/
def read (d : Directory) (path : Text) : Except FileFault Text :=
  if (0 : UInt8) ∈ path then .error .invalidName
  else if path = [] then .error .missing
  else if 4096 ≤ path.length then .error .nameTooLong
  else match d.walk (if path.head? = some slash then [] else home) (steps path) with
    | .error fault => .error fault
    | .ok .directory => .error .isDirectory
    | .ok (.file content) => if endsOpen path then .error .notDirectory else .ok content

end Directory

end TinyLisp

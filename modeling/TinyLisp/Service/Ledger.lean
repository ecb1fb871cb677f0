import TinyLisp.Failure

/-!
The ledger of a service: how many requests came in over each transport, and how they ended.
-/

namespace TinyLisp

/-- Counts under keys, in the order of the keys. -/
abbrev Tally (κ : Type) := List (κ × Nat)

namespace Tally

variable {κ : Type} [DecidableEq κ]

/-- The count under a key; zero if there is none. -/
def count (t : Tally κ) (k : κ) : Nat := (t.lookup k).getD 0

/-- Adds to the count under a key, which is made at its place if it is not there. -/
def add (before : κ → κ → Bool) (k : κ) (n : Nat) : Tally κ → Tally κ
  | [] => [(k, n)]
  | (j, m) :: t =>
    if k = j then (j, m + n) :: t
    else if before k j then (k, n) :: (j, m) :: t
    else (j, m) :: add before k n t

end Tally

/-- What requests are counted by. -/
structure RunKey where
  transport : Text
  result : Text
  deriving DecidableEq, Repr

namespace RunKey

/-- By transport, then by result. -/
def le (a b : RunKey) : Bool :=
  if a.transport = b.transport then a.result.le b.result else a.transport.le b.transport

end RunKey

structure Ledger where
  /-- Requests by transport and result. -/
  runs : Tally RunKey := []
  /-- Requests by transport, of which the time was taken. -/
  timed : Tally Text := []
  deriving DecidableEq, Repr

namespace Ledger

/-- How many requests of a transport ended in a result. -/
def count (l : Ledger) (transport result : Text) : Nat := l.runs.count ⟨transport, result⟩

/-- Enters one request. -/
def enter (l : Ledger) (transport : Text) (result : ResultLabel) : Ledger where
  runs := l.runs.add RunKey.le ⟨transport, Text.ofString result.name⟩ 1
  timed := l.timed.add Text.le transport 1

/-- Makes a count at zero if it is not there. -/
def touch (l : Ledger) (transport result : Text) : Ledger :=
  { l with runs := l.runs.add RunKey.le ⟨transport, result⟩ 0 }

end Ledger

end TinyLisp

import TinyLisp.Service.Ledger
import TinyLisp.Text.Decimal

/-!
The ledger in the exposition format of monitoring systems: families of samples with labels. The
distribution of times is left out but for the number of requests.
-/

namespace TinyLisp

namespace Exposition

/-- A backslash, a quote and a line end in the value of a label are escaped. -/
def escapeByte (b : UInt8) : Text :=
  if b = 92 then "\\\\" else if b = 34 then "\\\"" else if b = 10 then "\\n" else [b]

/-- Labels with their values. -/
def labels (pairs : List (String × Text)) : Text :=
  let parts : List Text := pairs.map fun p =>
    Text.ofString p.1 ++ "=\"" ++ p.2.flatMap escapeByte ++ "\""
  "\x7b" ++ Text.join "," parts ++ "\x7d"

/-- Up to six digits a count is written out; from there on it is the digits that matter, with a
point behind the first, and a power of ten of two digits at least. -/
def spellCount (n : Nat) : List Char :=
  let digits := Nat.toDigits 10 n
  if digits.length ≤ 6 then digits
  else
    let exponent := Nat.toDigits 10 (digits.length - 1)
    let mantissa := (digits.reverse.dropWhile (· = '0')).reverse
    let shown := match mantissa with
      | [] => []
      | [d] => [d]
      | d :: ds => d :: '.' :: ds
    shown ++ ['e', '+'] ++ (if exponent.length = 1 then '0' :: exponent else exponent)

/-- One sample: its name, its labels and its count. -/
def sample (name : String) (pairs : List (String × Text)) (n : Nat) : Text :=
  Text.ofString name ++ labels pairs ++ " " ++ Text.ofChars (spellCount n) ++ "\n"

/-- A family of samples under its description. Without samples there is no family. -/
def family (name help kind : String) (samples : List Text) : Text :=
  if samples = [] then []
  else "# HELP " ++ name ++ " " ++ help ++ "\n# TYPE " ++ name ++ " " ++ kind ++ "\n" ++
    samples.flatten

end Exposition

namespace Ledger

/-- The order of samples: by result, then by transport. -/
def sampleLe (a b : RunKey × Nat) : Bool :=
  if a.1.result = b.1.result then a.1.transport.le b.1.transport else a.1.result.le b.1.result

def timedSamples (l : Ledger) : List Text :=
  l.timed.map fun e =>
    Exposition.sample "lispust_run_duration_seconds_count" [("transport", e.1)] e.2

def runSamples (l : Ledger) : List Text :=
  (l.runs.mergeSort sampleLe).map fun e =>
    Exposition.sample "lispust_runs_total"
      [("result", e.1.result), ("transport", e.1.transport)] e.2

/-- Everything the ledger holds, for a monitoring system. -/
def exposition (l : Ledger) : Text :=
  Exposition.family "lispust_run_duration_seconds"
      "Time spent tokenizing, parsing and evaluating one expression." "histogram" l.timedSamples ++
    Exposition.family "lispust_runs_total"
      "Number of evaluated expressions, by transport and result." "counter" l.runSamples

end Ledger

end TinyLisp

import TinyLisp.Text.Percent

/-!
Hosts given by number: four numbers of eight bits with dots between, or eight of sixteen bits in
hexadecimal digits with colons between.
-/

namespace TinyLisp

namespace Text

def isDigitByte (b : UInt8) : Bool := 48 ≤ b && b ≤ 57

/-- Whether a text is a number of eight bits without needless zeros. -/
def isOctet (t : Text) : Bool :=
  t.all isDigitByte && t.length ≤ 3 &&
    match t with
    | [] => false
    | [_] => true
    | b :: _ => b ≠ 48 && t.foldl (fun n d => n * 10 + (d.toNat - 48)) 0 ≤ 255

def isIpv4 (t : Text) : Bool :=
  let parts := t.split 46
  parts.length = 4 && parts.all isOctet

/-- Whether a text is a number of sixteen bits in hexadecimal digits. -/
def isGroup (t : Text) : Bool := t.all isHexDigit && 0 < t.length && t.length ≤ 4

/-- How many of the eight numbers the given groups spell. If `dotted`, the last group may be two of
them, written with dots. -/
def groupCount? (dotted : Bool) : List Text → Option Nat
  | [] => some 0
  | [g] => if isGroup g then some 1 else if dotted && isIpv4 g then some 2 else none
  | g :: gs => if isGroup g then (groupCount? dotted gs).map (· + 1) else none

/-- The groups of a part that may be left out. -/
def groups (t : Text) : List Text := if t = [] then [] else t.split 58

/-- What stands before and after the first two colons in a row. -/
def cutGap? : Text → Option (Text × Text)
  | [] => none
  | 58 :: 58 :: t => some ([], t)
  | b :: t => (cutGap? t).map fun p => (b :: p.1, p.2)

/-- Two colons in a row stand for as many zeros as are missing, and for one at least. -/
def isIpv6 (t : Text) : Bool :=
  match cutGap? t with
  | none => groupCount? true (t.split 58) = some 8
  | some (left, right) =>
    match groupCount? false (groups left), groupCount? true (groups right) with
    | some a, some b => a + b ≤ 7
    | _, _ => false

def isIp (t : Text) : Bool := isIpv4 t || isIpv6 t

/-- Whether a text is an address of the longer kind, possibly with the zone it is meant in. -/
def isScopedIpv6 (t : Text) : Bool :=
  match t.cut? percent with
  | none => isIpv6 t
  | some (address, zone) => isIpv6 address && zone ≠ []

end Text

end TinyLisp

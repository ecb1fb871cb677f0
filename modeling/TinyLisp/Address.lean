import TinyLisp.Text.Decimal

/-!
Network addresses: a host and a port with a colon between, the host in brackets if it holds colons
itself.
-/

namespace TinyLisp

/-- Why a text is no address. -/
inductive AddressFault where
  | missingPort
  | tooManyColons
  | missingBracket
  | unexpectedOpen
  | unexpectedClose
  deriving DecidableEq, Repr

def AddressFault.summary : AddressFault → String
  | .missingPort => "missing port in address"
  | .tooManyColons => "too many colons in address"
  | .missingBracket => "missing ']' in address"
  | .unexpectedOpen => "unexpected '[' in address"
  | .unexpectedClose => "unexpected ']' in address"

/-- What is wrong with the given address, or with the given part of one. -/
def addressMessage (t : Text) (summary : String) : Text :=
  if t = [] then summary else "address " ++ t ++ ": " ++ summary

def AddressFault.message (f : AddressFault) (t : Text) : Text := addressMessage t f.summary

structure Address where
  host : Text
  port : Text
  deriving DecidableEq, Repr

namespace Address

def colon : UInt8 := 58
def openBracket : UInt8 := 91
def closeBracket : UInt8 := 93

/-- An address whose host is in brackets; `inner` follows the opening one. -/
def ofBracketed (inner : Text) : Except AddressFault Address :=
  match inner.cut? closeBracket with
  | none => .error .missingBracket
  | some (host, after) =>
    match after with
    | [] => .error .missingPort
    | b :: port =>
      if b ≠ colon then .error .missingPort
      else if colon ∈ port then .error .tooManyColons
      else if openBracket ∈ inner then .error .unexpectedOpen
      else if closeBracket ∈ port then .error .unexpectedClose
      else .ok ⟨host, port⟩

/-- The parts of an address. Nothing is asked of host and port, which may both be empty. -/
def parse (t : Text) : Except AddressFault Address :=
  match t.cut? colon with
  | none => .error .missingPort
  | some (host, port) =>
    match t with
    | 91 :: inner => ofBracketed inner
    | _ =>
      if colon ∈ port then .error .tooManyColons
      else if openBracket ∈ t then .error .unexpectedOpen
      else if closeBracket ∈ t then .error .unexpectedClose
      else .ok ⟨host, port⟩

/-- Why one cannot listen at an address. -/
inductive ListenFault where
  | malformed (fault : AddressFault)
  | badPort (port : Text)
  | unknownPort (port : Text)
  deriving DecidableEq, Repr

/-- Services whose port is known by their name. -/
def knownServices : List String :=
  ["ftp", "ftps", "gopher", "http", "https", "imap2", "imap3", "imaps", "pop3", "pop3s", "smtp",
    "submissions", "ssh", "telnet"]

def lowerCase (b : UInt8) : UInt8 := if 65 ≤ b ∧ b ≤ 90 then b + 32 else b

/-- The number that digits spell, as far as 32 bits hold it: a tenfold that is too large wraps
around, and nothing more is read once the number is far too large for a port. -/
def portNumber? (n : UInt32) : List Char → Option UInt32
  | [] => some n
  | c :: cs =>
    if !c.isDigit then none
    else if 1073741824 ≤ n then some 4294967295
    else
      let tenfold := n * 10
      let next := tenfold + (c.toNat - 48).toUInt32
      if next < tenfold then some 4294967295 else portNumber? next cs

/-- A port is a number of 16 bits, possibly with a sign, the name of a service, or empty for any. -/
def checkPort (port : Text) : Except ListenFault Unit :=
  if port = [] ∨ Text.isOneOf knownServices (port.map lowerCase) then .ok ()
  else
    let cs := port.chars
    let negative := cs.head? = some '-'
    match portNumber? 0 (if negative ∨ cs.head? = some '+' then cs.drop 1 else cs) with
    | some n => if n = 0 ∨ ¬ negative ∧ n ≤ 65535 then .ok () else .error (.badPort port)
    | none => .error (.unknownPort port)

/-- Whether one can listen at the address a text spells. -/
def listen (t : Text) : Except ListenFault Unit :=
  match parse t with
  | .error f => .error (.malformed f)
  | .ok a => checkPort a.port

def ListenFault.message (f : ListenFault) (t : Text) : Text :=
  "listening on " ++ t ++ ": listen tcp: " ++
    match f with
    | .malformed fault => fault.message t
    | .badPort port => addressMessage port "invalid port"
    | .unknownPort port => "lookup tcp/" ++ port ++ ": unknown port"

end Address

end TinyLisp

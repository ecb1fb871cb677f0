import TinyLisp.Address
import TinyLisp.Ip
import TinyLisp.Text.Quoted

/-!
What a client calls: an endpoint, and the scheme by which it is found. A text without a scheme of
its own is looked up by name.
-/

namespace TinyLisp

/-- How an endpoint is found. -/
inductive Scheme where
  /-- By asking for the address that goes with a name. -/
  | dns
  /-- The endpoint is the address. -/
  | passthrough
  /-- The endpoint is the path of a socket. -/
  | unix
  /-- The endpoint is the name of a socket without a path. -/
  | unixAbstract
  deriving DecidableEq, Repr

namespace Scheme

def all : List Scheme := [.dns, .passthrough, .unix, .unixAbstract]

def name : Scheme → String
  | .dns => "dns"
  | .passthrough => "passthrough"
  | .unix => "unix"
  | .unixAbstract => "unix-abstract"

/-- The scheme of a name, whose letters may be small or capital. -/
def ofName? (t : Text) : Option Scheme :=
  all.find? fun s => Text.ofString s.name = t.map Address.lowerCase

end Scheme

/-- Why a text is no target. -/
inductive TargetFault where
  /-- A percent sign without two hexadecimal digits behind it; `near` begins with it. -/
  | badEscape (near : Text)
  | controlCharacter
  deriving DecidableEq, Repr

def TargetFault.message : TargetFault → Text
  | .badEscape near => "invalid URL escape " ++ near.quote
  | .controlCharacter => "net/url: invalid control character in URL"

structure Target where
  scheme : Scheme
  /-- Who is asked; empty for the usual one. -/
  host : Text
  path : Text
  deriving DecidableEq, Repr

namespace Target

def slash : UInt8 := 47
def questionMark : UInt8 := 63
def numberSign : UInt8 := 35

/-- What a path leads to: the path without its first slash. -/
def endpoint (t : Target) : Text :=
  match t.path with
  | 47 :: rest => rest
  | path => path

def isControl (b : UInt8) : Bool := b < 32 || b = 127

/-- What stands before the fragment, and the fragment. -/
def cutFragment (t : Text) : Text × Text :=
  (t.takeWhile (· ≠ numberSign), (t.dropWhile (· ≠ numberSign)).drop 1)

def isAlphanumeric (b : UInt8) : Bool :=
  Text.isDigitByte b || 65 ≤ b && b ≤ 90 || 97 ≤ b && b ≤ 122

/-- Whether a byte may stand for itself in a host. All those that need eight bits may. -/
def isHostByte (b : UInt8) : Bool :=
  isAlphanumeric b || 128 ≤ b || b ∈ Text.ofString "!$&'()*+,;=:[]<>\"-_.~"

/-- Whether a byte may stand in the name of a user. -/
def isUserByte (b : UInt8) : Bool :=
  isAlphanumeric b || b ∈ Text.ofString "-._:~!$&'()*+,;=%@"

/-- A part of a host without its escapes. Only bytes with the property `escaped` may be escaped. -/
def unescapeHost? (escaped : UInt8 → Bool) : Text → Option Text
  | [] => some []
  | 37 :: a :: b :: t =>
    match Text.hexValue? a, Text.hexValue? b with
    | some x, some y =>
      let byte := x * 16 + y
      if escaped byte then (unescapeHost? escaped t).map (byte :: ·) else none
    | _, _ => none
  | b :: t => if isHostByte b then (unescapeHost? escaped t).map (b :: ·) else none

def hostName? (t : Text) : Option Text :=
  unescapeHost? (fun b => b = Text.percent || 128 ≤ b) t

/-- A zone with the percent sign in front of it. -/
def zone? (t : Text) : Option Text :=
  unescapeHost? (fun b => b = Text.percent || b = 32 || b < 128 && isHostByte b) t

/-- Whether a text is empty or a colon with digits after it. -/
def isPort : Text → Bool
  | [] => true
  | b :: digits => b = Address.colon && digits.all Text.isDigitByte

/-- The bytes up to and with the last `b`, and those after it. -/
def cutLast? (b : UInt8) (t : Text) : Option (Text × Text) :=
  if b ∈ t then
    some ((t.reverse.dropWhile (· ≠ b)).reverse, (t.reverse.takeWhile (· ≠ b)).reverse)
  else none

/-- What stands before the first escaped percent sign, and the rest from there on. -/
def cutZone : Text → Text × Text
  | [] => ([], [])
  | b :: t =>
    if ("%25" : Text).isPrefixOf (b :: t) then ([], b :: t)
    else let (before, rest) := cutZone t; (b :: before, rest)

/-- The host in brackets, which must be a number; `inner` follows the opening one. -/
def bracketed? (inner : Text) : Option Text := do
  let (closed, port) ← cutLast? Address.closeBracket inner
  let (before, scope) := cutZone closed.dropLast
  let name := (← hostName? before) ++ (← zone? scope)
  if isPort port ∧ name.isScopedIpv6 then some ("[" ++ name ++ "]" ++ port) else none

/-- The host that a text names, with its port. -/
def namedHost? (t : Text) : Option Text :=
  match t with
  | 91 :: inner => if Address.openBracket ∈ inner then none else bracketed? inner
  | _ =>
    let port : Text := match cutLast? Address.colon t with
      | some (_, port) => Address.colon :: port
      | none => []
    if Address.openBracket ∈ t ∨ ¬ isPort port then none else hostName? t

/-- The host in a text that may name a user in front of it. -/
def host? (t : Text) : Option Text :=
  match cutLast? 64 t with
  | none => namedHost? t
  | some (user, host) =>
    let user : Text := user.dropLast
    if user.all isUserByte ∧ user.badEscape? = none then namedHost? host else none

/-- Host and path in what follows the scheme. What begins without a slash is a path as it stands. -/
def location? (t : Text) : Option (Text × Text) :=
  match t with
  | 47 :: 47 :: t => do
    let host ← host? (t.takeWhile (· ≠ slash))
    let path ← Text.unescape? (t.dropWhile (· ≠ slash))
    some (host, path)
  | 47 :: _ => t.unescape?.map fun path => ([], path)
  | _ => some ([], t)

/-- The target of a text that names its scheme. -/
def ofNamed? (t : Text) : Option Target := do
  let (body, fragment) := cutFragment t
  let (name, rest) ← body.cut? Address.colon
  let scheme ← Scheme.ofName? name
  let (host, path) ← location? (rest.takeWhile (· ≠ questionMark))
  if body.any isControl ∨ fragment.badEscape? ≠ none then none else some ⟨scheme, host, path⟩

/-- The target of a text in which no scheme is looked for. A fault comes with the part of the
target that is to blame. -/
def ofUnnamed (t : Text) : Except (Text × TargetFault) Target :=
  let whole : Text := "dns:///" ++ t
  let (body, fragment) := cutFragment whole
  let path : Text := (body.takeWhile (· ≠ questionMark)).drop 6
  if body.any isControl then .error (body, .controlCharacter)
  else match path.badEscape?, fragment.badEscape? with
    | some near, _ => .error (body, .badEscape near)
    | none, some near => .error (whole, .badEscape near)
    | none, none => .ok ⟨.dns, [], path.unescape⟩

/-- The target that a text spells. A text that fails with its own scheme is taken without one. -/
def parse (t : Text) : Except (Text × TargetFault) Target :=
  match ofNamed? t with
  | some target => .ok target
  | none => ofUnnamed t

end Target

end TinyLisp

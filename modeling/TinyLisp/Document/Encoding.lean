import TinyLisp.Text.Basic

/-!
The characters that the bytes of a document spell. A byte order mark at the front tells the
encoding; without one it is UTF-8.

Bytes are decoded in blocks. A character that a block cuts in two is left for the next block, and
is a fault only if there is none.
-/

namespace TinyLisp.Document

inductive Encoding where
  | utf8
  | utf16 (littleEndian : Bool)
  deriving DecidableEq, Repr

/-- Whether a document may hold the character. -/
def isDocumentChar (c : Char) : Bool :=
  let v := c.toNat
  v = 0x09 || v = 0x0A || v = 0x0D || 0x20 ≤ v && v ≤ 0x7E || v = 0x85
    || 0xA0 ≤ v && v ≤ 0xFFFD || 0x10000 ≤ v

namespace Encoding

/-- The encoding that the front of a text tells, and the text behind the mark for it. -/
def detect : Text → Encoding × Text
  | 0xFF :: 0xFE :: t => (.utf16 true, t)
  | 0xFE :: 0xFF :: t => (.utf16 false, t)
  | 0xEF :: 0xBB :: 0xBF :: t => (.utf8, t)
  | t => (.utf8, t)

/-- What stands at the front of some bytes. -/
inductive Front where
  | char (c : Char) (width : Nat)
  /-- A character of which some bytes are missing. -/
  | cut
  | broken

/-- The number of bytes in a UTF-8 sequence with the given first one. -/
def sequenceWidth? (b : UInt8) : Option Nat :=
  if b < 0x80 then some 1
  else if b < 0xC0 then none
  else if b < 0xE0 then some 2
  else if b < 0xF0 then some 3
  else if b < 0xF8 then some 4
  else none

def frontUtf8 : Text → Front
  | [] => .cut
  | b :: t =>
    match sequenceWidth? b with
    | none => .broken
    | some width =>
      let spelling := (b :: t).take width
      if spelling.length < width then .cut
      else match Text.char? spelling with
        | some c => .char c width
        | none => .broken

/-- A unit of 16 bits from two bytes. -/
def unit (littleEndian : Bool) (a b : UInt8) : Nat :=
  if littleEndian then b.toNat * 256 + a.toNat else a.toNat * 256 + b.toNat

/-- A unit is a character, or the first half of one; a second half without a first is a fault. -/
def frontUtf16 (littleEndian : Bool) : Text → Front
  | a :: b :: t =>
    let u := unit littleEndian a b
    if u / 1024 = 0x37 then .broken
    else if u / 1024 = 0x36 then
      match t with
      | c :: d :: _ =>
        let v := unit littleEndian c d
        if v / 1024 = 0x37 then .char (Char.ofNat (0x10000 + u % 1024 * 1024 + v % 1024)) 4
        else .broken
      | _ => .cut
    else .char (Char.ofNat u) 2
  | _ => .cut

def front (e : Encoding) (t : Text) : Front :=
  match e with
  | .utf8 => frontUtf8 t
  | .utf16 littleEndian => frontUtf16 littleEndian t

/-- The characters of a block, and the bytes that are left of it. `last` if no block follows. -/
def decodeFrom (e : Encoding) (last : Bool) (fuel : Nat) (kept : List Char) (t : Text) :
    Option (List Char × Text) :=
  match fuel, t with
  | 0, _ | _, [] => some (kept.reverse, t)
  | fuel + 1, t =>
    match e.front t with
    | .broken => none
    | .cut => if last then none else some (kept.reverse, t)
    | .char c width =>
      if isDocumentChar c then decodeFrom e last fuel (c :: kept) (t.drop width) else none

def decode (e : Encoding) (last : Bool) (t : Text) : Option (List Char × Text) :=
  decodeFrom e last t.length [] t

end Encoding

end TinyLisp.Document

import TinyLisp.Node.Printer

/-!
What an expression comes to.
-/

namespace TinyLisp

/-- A result: a number or a truth value. The third kind is the value of nothing at all. -/
inductive Value where
  | invalid
  | number (v : Int32)
  | boolean (b : Bool)
  deriving DecidableEq, Repr

inductive ValueKind where
  | invalid
  | number
  | boolean
  deriving DecidableEq, Repr

def ValueKind.name : ValueKind → String
  | .invalid => "invalid"
  | .number => "number"
  | .boolean => "boolean"

def ValueKind.ofCode? : UInt8 → Option ValueKind
  | 0 => some .invalid
  | 1 => some .number
  | 2 => some .boolean
  | _ => none

namespace Value

def kind : Value → ValueKind
  | .invalid => .invalid
  | .number _ => .number
  | .boolean _ => .boolean

def isNumber : Value → Bool
  | .number _ => true
  | _ => false

def isBoolean : Value → Bool
  | .boolean _ => true
  | _ => false

/-- The number held, and zero where there is none. -/
def int : Value → Int32
  | .number v => v
  | _ => 0

/-- The truth value held, and false where there is none. -/
def bool : Value → Bool
  | .boolean b => b
  | _ => false

/-- The value as a literal. -/
def spell : Value → List Char
  | .invalid => ":invalid".toList
  | .number v => decimal v.toInt
  | .boolean b => spellBool b

/-- The value with its kind, as diagnostics show it. -/
def tagged : Value → List Char
  | .invalid => "Invalid()".toList
  | .number v => "Number(".toList ++ decimal v.toInt ++ [')']
  | .boolean b => "Boolean(".toList ++ spellBool b ++ [')']

def render (v : Value) : Text := Text.ofChars v.spell

def describe (v : Value) : Text := Text.ofChars v.tagged

end Value

end TinyLisp

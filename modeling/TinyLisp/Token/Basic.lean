import TinyLisp.Text.Quoted

/-!
Tokens: parentheses and words, with the text they were read from.
-/

namespace TinyLisp

/-- What a token is. Kinds other than the three that scanning yields are kept by their code. -/
inductive TokenKind where
  | openParen
  | closeParen
  | word
  | invalid (code : UInt8)
  deriving DecidableEq, Repr

namespace TokenKind

def ofCode (code : UInt8) : TokenKind :=
  if code = 1 then .openParen
  else if code = 2 then .closeParen
  else if code = 3 then .word
  else .invalid code

def code : TokenKind → UInt8
  | .openParen => 1
  | .closeParen => 2
  | .word => 3
  | .invalid code => code

@[simp] theorem code_ofCode (c : UInt8) : (ofCode c).code = c := by
  unfold ofCode
  split
  · simp_all [code]
  · split
    · simp_all [code]
    · split <;> simp_all [code]

def name : TokenKind → String
  | .openParen => "open_expression"
  | .closeParen => "close_expression"
  | .word => "word"
  | .invalid _ => "invalid"

end TokenKind

/-- A lexical unit. Nothing ties the kind to the text, except in what scanning yields. -/
structure Token where
  kind : TokenKind
  text : Text
  deriving DecidableEq, Repr

/-- The kind and the quoted text of a token, on one line. -/
def Token.describe (t : Token) : Text :=
  "(:" ++ t.kind.name ++ " " ++ t.text.quote ++ ")"

end TinyLisp

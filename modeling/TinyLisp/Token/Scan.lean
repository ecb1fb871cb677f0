import TinyLisp.Text.Blank
import TinyLisp.Token.Basic

/-!
Splitting a text into tokens: every parenthesis is set off by blanks, and what stands between
blanks is one token.
-/

namespace TinyLisp

/-- The kind of the token that a parenthesis forms on its own. -/
def parenKind? (c : Char) : Option TokenKind :=
  if c = '(' then some .openParen
  else if c = ')' then some .closeParen
  else none

/-- The characters with a blank on each side of every parenthesis. -/
def isolateParens (cs : List Char) : List Char :=
  cs.flatMap fun c => if (parenKind? c).isSome then [' ', c, ' '] else [c]

/-- The stretches between blanks, empty ones included. -/
def splitBlanks : List Char → List (List Char)
  | [] => [[]]
  | c :: cs =>
    if isBlank c then [] :: splitBlanks cs
    else match splitBlanks cs with
      | [] => [[c]]
      | field :: fields => (c :: field) :: fields

/-- The stretches between blanks that hold something. -/
def wordsOf (cs : List Char) : List (List Char) :=
  (splitBlanks cs).filter (· ≠ [])

/-- A stretch is a parenthesis when that is all it holds, and a word otherwise. -/
def Token.ofWord (cs : List Char) : Token :=
  let kind := match cs with
    | [c] => (parenKind? c).getD .word
    | _ => .word
  ⟨kind, Text.ofChars cs⟩

/-- The tokens of a text, in order. Every text has some, if only none at all. -/
def Text.tokens (t : Text) : List Token :=
  (wordsOf (isolateParens t.chars)).map Token.ofWord

end TinyLisp

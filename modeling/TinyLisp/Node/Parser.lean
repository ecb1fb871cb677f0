import TinyLisp.Node.Basic
import TinyLisp.Text.Decimal
import TinyLisp.Token.Scan

/-!
Reading trees from tokens by recursive descent.

A reader takes the tokens that are left and yields a result or a fault together with the tokens it
did not look at; these are never more than it was given, which is why reading ends.
-/

namespace TinyLisp

/-- Why some tokens are no expression. Where one token is to blame, the fault holds its text. -/
inductive ParseFault where
  | unexpectedEnd
  | tooManyCloses
  | invalidToken (text : Text)
  | unexpectedToken (text : Text)
  | missingOpen (text : Text)
  | trailingTokens (text : Text)
  deriving DecidableEq, Repr

namespace ParseFault

/-- What went wrong, without the token to blame. -/
def summary : ParseFault → String
  | .unexpectedEnd => "no parenthesis in tokens"
  | .tooManyCloses => "too many close parentheses"
  | .invalidToken _ => "invalid token"
  | .unexpectedToken _ => "unexpected token"
  | .missingOpen _ => "expression must begin with an open parenthesis"
  | .trailingTokens _ => "unexpected tokens after expression"

/-- The text of the token to blame, if one is. -/
def token? : ParseFault → Option Text
  | .unexpectedEnd | .tooManyCloses => none
  | .invalidToken t | .unexpectedToken t | .missingOpen t | .trailingTokens t => some t

/-- What went wrong, with the token to blame in quotes. -/
def reason (f : ParseFault) : Text :=
  match f.token? with
  | none => f.summary
  | some t => f.summary ++ ": " ++ t.quote

def message (f : ParseFault) : Text := "invalid expression: " ++ f.reason

end ParseFault

/-- The literal that a token spells, whatever its kind. -/
def Token.atom (t : Token) : Except ParseFault Node :=
  if t.text = Text.ofString "true" then .ok (.boolean true)
  else if t.text = Text.ofString "false" then .ok (.boolean false)
  else match int32? t.text.chars with
    | some v => .ok (.number v)
    | none => .error (.invalidToken t.text)

/-- What the token after an open parenthesis makes of the form. -/
inductive FormHead where
  | close
  | operator (op : Operator)
  | conditional
  | item
  deriving DecidableEq, Repr

/-- Only a word can name an operator or open a conditional. -/
def Token.formHead (t : Token) : FormHead :=
  match t.kind with
  | .closeParen => .close
  | .word =>
    match Operator.ofSymbol? t.text with
    | some op => .operator op
    | none => if t.text = Text.ofString "if" then .conditional else .item
  | .openParen | .invalid _ => .item

/-- What reading came to, and the tokens after those looked at: at most `n` of them. -/
structure Reading (α : Type) (n : Nat) where
  outcome : Except ParseFault α
  rest : List Token
  rest_le : rest.length ≤ n

namespace Reading

def map {α β : Type} {n : Nat} (f : α → β) (r : Reading α n) : Reading β n :=
  ⟨r.outcome.map f, r.rest, r.rest_le⟩

/-- The same reading as part of a longer one. -/
def within {α : Type} {n m : Nat} (h : n ≤ m) (r : Reading α n) : Reading α m :=
  ⟨r.outcome, r.rest, Nat.le_trans r.rest_le h⟩

end Reading

/-- A fixed number of trees. -/
@[reducible] def Operands : Nat → Type
  | 0 => Unit
  | n + 1 => Node × Operands n

mutual

/-- One form, whose first token `t` has been taken off. -/
def readForm (t : Token) (ts : List Token) : Reading Node ts.length :=
  match t.kind with
  | .openParen => readBody ts
  | .closeParen => ⟨.error .tooManyCloses, ts, Nat.le_refl _⟩
  | .word | .invalid _ => ⟨t.atom, ts, Nat.le_refl _⟩
termination_by (ts.length, 2)

/-- What follows an open parenthesis, up to and including the matching one. -/
def readBody (ts : List Token) : Reading Node ts.length :=
  match ts with
  | [] => ⟨.error .unexpectedEnd, [], Nat.le_refl _⟩
  | t :: rest =>
    match t.formHead with
    | .close => ⟨.ok (.sequence []), rest, Nat.le_succ _⟩
    | .operator op =>
      ((readOperands 2 rest).map fun xs => .binary op xs.1 xs.2.1).within (Nat.le_succ _)
    | .conditional =>
      ((readOperands 3 rest).map fun xs => .conditional xs.1 xs.2.1 xs.2.2.1).within
        (Nat.le_succ _)
    | .item => (readItems (t :: rest)).map .sequence
termination_by (ts.length, 1)

/-- Exactly `n` forms and the close parenthesis after them. -/
def readOperands (n : Nat) (ts : List Token) : Reading (Operands n) ts.length :=
  match n, ts with
  | _, [] => ⟨.error .unexpectedEnd, [], Nat.le_refl _⟩
  | 0, t :: rest =>
    if t.kind = .closeParen then ⟨.ok (), rest, Nat.le_succ _⟩
    else ⟨.error (.unexpectedToken t.text), rest, Nat.le_succ _⟩
  | n + 1, t :: rest =>
    let first := readForm t rest
    have shorter : first.rest.length < rest.length + 1 := Nat.lt_succ_of_le first.rest_le
    match first.outcome with
    | .error e => ⟨.error e, first.rest, Nat.le_of_lt shorter⟩
    | .ok x => ((readOperands n first.rest).map fun xs => (x, xs)).within (Nat.le_of_lt shorter)
termination_by (ts.length, 0)

/-- Forms up to a close parenthesis, and that. -/
def readItems (ts : List Token) : Reading (List Node) ts.length :=
  match ts with
  | [] => ⟨.error .unexpectedEnd, [], Nat.le_refl _⟩
  | t :: rest =>
    if t.kind = .closeParen then ⟨.ok [], rest, Nat.le_succ _⟩
    else
      let first := readForm t rest
      have shorter : first.rest.length < rest.length + 1 := Nat.lt_succ_of_le first.rest_le
      match first.outcome with
      | .error e => ⟨.error e, first.rest, Nat.le_of_lt shorter⟩
      | .ok x => ((readItems first.rest).map (x :: ·)).within (Nat.le_of_lt shorter)
termination_by (ts.length, 0)

end

/-- The tree of the one parenthesised form that the tokens make up. -/
def Node.ofTokens (ts : List Token) : Except ParseFault Node :=
  match ts with
  | [] => .error .unexpectedEnd
  | t :: rest =>
    match t.kind with
    | .openParen =>
      let form := readForm t rest
      match form.outcome, form.rest with
      | .error e, _ => .error e
      | .ok n, [] => .ok n
      | .ok _, extra :: _ => .error (.trailingTokens extra.text)
    | .closeParen => .error .tooManyCloses
    | .word | .invalid _ => .error (.missingOpen t.text)

/-- The tree of an expression. -/
def Text.parse (t : Text) : Except ParseFault Node := Node.ofTokens t.tokens

end TinyLisp

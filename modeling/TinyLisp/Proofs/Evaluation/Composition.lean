import TinyLisp.Proofs.Evaluation.FirstFault
import TinyLisp.Proofs.Evaluation

/-!
Texts put together from texts.

A text that spells one form can be written as an operand, in any layout of its own: a space or a
parenthesis ends it, and reading takes it whole. So what the larger text comes to is settled by what
the trees of its operands come to.
-/

namespace TinyLisp

/-- The tokens of the text are those of one form, a literal or one in parentheses. -/
def Text.IsFormOf (s : Text) (n : Node) : Prop := Derives s.tokens n

/-- A form as it is written: what it begins with and its operands, each behind a space. -/
def Text.form (head : String) (operands : List Text) : Text :=
  "(" ++ head ++ operands.flatMap (fun x => Text.ofString " " ++ x) ++ ")"

/-- The text comes to what an operator makes of two trees. On whole numbers it is `f`, and the
result wraps around. -/
structure Text.IsOperation (s : Text) (op : Operator) (f : Int → Int → Int) (l r : Node) :
    Prop where
  not_parse : ∀ e, s.eval ≠ .error (.parse e)
  left_fault : ∀ e, l.eval = .error e → s.eval = .error (.eval e)
  right_fault : ∀ v e, l.eval = .ok v → r.eval = .error e → s.eval = .error (.eval e)
  numbers : ∀ a b, l.eval = .ok (.number a) → r.eval = .ok (.number b) →
    s.eval = .ok (.number (Int32.ofInt (f a.toInt b.toInt)))
  types : ∀ v w, l.eval = .ok v → r.eval = .ok w → ¬(v.isNumber ∧ w.isNumber) →
    s.eval = .error (.eval (.types (.operands op v w)))

/-- The text comes to what the tree comes to that the value of `c` chooses. -/
structure Text.IsChoice (s : Text) (c y z : Node) : Prop where
  not_parse : ∀ e, s.eval ≠ .error (.parse e)
  fault : ∀ e, c.eval = .error e → s.eval = .error (.eval e)
  number : ∀ a, c.eval = .ok (.number a) →
    s.eval = .error (.eval (.types (.condition (.number a))))
  chosen : ∀ b, c.eval = .ok (.boolean b) → s.eval = (if b then y else z).eval.mapError .eval

section Reading

variable {c x y : Text} {k m n : Node}

theorem Text.form_pair (head : String) (x y : Text) :
    Text.form head [x, y] = "(" ++ head ++ " " ++ x ++ " " ++ y ++ ")" := by
  simp [Text.form]

theorem Text.form_triple (head : String) (x y z : Text) :
    Text.form head [x, y, z] = "(" ++ head ++ " " ++ x ++ " " ++ y ++ " " ++ z ++ ")" := by
  simp [Text.form]

theorem Text.tokens_space (s t : Text) :
    Text.tokens (s ++ (Text.ofString " " ++ t)) = s.tokens ++ t.tokens :=
  Text.tokens_append_blank (b := ' ') (by decide) s t

theorem Text.tokens_operands (s : Text) (operands : List Text) :
    Text.tokens (s ++ operands.flatMap (fun x => Text.ofString " " ++ x)) =
      s.tokens ++ operands.flatMap Text.tokens := by
  induction operands generalizing s with
  | nil => simp
  | cons x xs ih =>
    rw [List.flatMap_cons, ← List.append_assoc, ih, Text.tokens_space, List.append_assoc,
      List.flatMap_cons]

theorem Text.tokens_openParen (t : Text) :
    Text.tokens (Text.ofString "(" ++ t) = .leftParen :: t.tokens := by
  have h := Text.tokens_append_paren (c := '(') rfl [] t
  rwa [Text.tokens_nil] at h

theorem Text.tokens_closeParen (s : Text) :
    Text.tokens (s ++ Text.ofString ")") = s.tokens ++ [.rightParen] := by
  have h := Text.tokens_append_paren (c := ')') rfl s []
  rwa [Text.tokens_nil] at h

theorem Text.tokens_form (head : String) (operands : List Text) :
    (Text.form head operands).tokens =
      .leftParen :: (tokensOf head.toList ++ (operands.flatMap Text.tokens ++ [.rightParen])) := by
  have hhead : Text.tokens (Text.ofString head) = tokensOf head.toList :=
    Text.tokens_ofChars head.toList
  rw [Text.form, Text.tokens_closeParen, Text.tokens_operands, Text.tokens_openParen, hhead,
    List.cons_append, List.cons_append, List.append_assoc]

theorem DerivesBody.ofTokens {p : List Token} (h : DerivesBody p n) :
    Node.ofTokens (.leftParen :: p) = .ok n :=
  Node.ofTokens_eq_ok_iff.mpr ⟨⟨_, rfl, rfl⟩, h .leftParen rfl⟩

theorem Text.parse_form_operator (op : Operator) (hop : op.isKnown) (hx : x.IsFormOf n)
    (hy : y.IsFormOf m) :
    (Text.form op.symbol [x, y]).parse = .ok (.binary op n m) := by
  have hforms : ClosedForms (x.tokens ++ (y.tokens ++ [.rightParen])) [n, m] :=
    .cons hx (.cons hy (.close rfl))
  have hbody := hforms.binary (t := .word op.symbol.toList) rfl hop rfl
  rw [Text.parse, Text.tokens_form, tokensOf_symbol, Operator.tokens_eq hop]
  simpa using hbody.ofTokens

theorem Text.parse_form_if (hc : c.IsFormOf k) (hx : x.IsFormOf n) (hy : y.IsFormOf m) :
    (Text.form "if" [c, x, y]).parse = .ok (.conditional k n m) := by
  have hforms : ClosedForms (c.tokens ++ (x.tokens ++ (y.tokens ++ [.rightParen]))) [k, n, m] :=
    .cons hc (.cons hx (.cons hy (.close rfl)))
  have hbody := hforms.conditional (t := .word "if".toList) rfl rfl
  have hif : tokensOf "if".toList = [.word "if".toList] := rfl
  rw [Text.parse, Text.tokens_form, hif]
  simpa using hbody.ofTokens

end Reading

section Outcome

variable {s : Text} {op : Operator} {f : Int → Int → Int} {c l n r y z : Node}

theorem Text.eval_of_parse (h : s.parse = .ok n) : s.eval = n.eval.mapError .eval := by
  rw [Text.eval, h]
  dsimp only
  cases n.eval with
  | ok v => rfl
  | error e => rfl

theorem Text.eval_ne_parse (h : s.parse = .ok n) (e : ParseFault) :
    s.eval ≠ .error (.parse e) := by
  intro he
  have hrefused : s.parse = .error e := (s.eval_eq_iff _).mp he
  rw [h] at hrefused
  cases hrefused

theorem Text.isOperation_of_parse (h : s.parse = .ok (.binary op l r))
    (hop : ∀ a b : Int32,
      op.apply (.number a) (.number b) = .ok (.number (Int32.ofInt (f a.toInt b.toInt)))) :
    s.IsOperation op f l r where
  not_parse := Text.eval_ne_parse h
  left_fault := by
    intro e hl
    have hn : (Node.binary op l r).eval = .error e := (Frame.left op r).eval_fill hl
    rw [Text.eval_of_parse h, hn]
    rfl
  right_fault := by
    intro v e hl hr
    have hn : (Node.binary op l r).eval = .error e := (Frame.right op l ⟨v, hl⟩).eval_fill hr
    rw [Text.eval_of_parse h, hn]
    rfl
  numbers := by
    intro a b hl hr
    have hn : (Node.binary op l r).eval = .ok (.number (Int32.ofInt (f a.toInt b.toInt))) := by
      rw [Node.eval, hl, hr]
      exact hop a b
    rw [Text.eval_of_parse h, hn]
    rfl
  types := by
    intro v w hl hr hne
    rw [Text.eval_of_parse h, (Node.FaultsHere.operands hl hr hne).eval_eq]
    rfl

theorem Text.isChoice_of_parse (h : s.parse = .ok (.conditional c y z)) : s.IsChoice c y z where
  not_parse := Text.eval_ne_parse h
  fault := by
    intro e hc
    have hn : (Node.conditional c y z).eval = .error e := (Frame.cond y z).eval_fill hc
    rw [Text.eval_of_parse h, hn]
    rfl
  number := by
    intro a hc
    rw [Text.eval_of_parse h, (Node.FaultsHere.condition hc Bool.false_ne_true).eval_eq]
    rfl
  chosen := by
    intro b hc
    rw [Text.eval_of_parse h, Node.eval, hc]
    cases b with
    | true => rfl
    | false => rfl

end Outcome

section Composed

variable {c x y : Text} {k m n : Node}

/-- Texts that spell forms are operands wherever they are written as such: a sum, a difference and a
choice come to what the trees of their operands come to, and are never refused. -/
theorem Text.eval_composed (hc : c.IsFormOf k) (hx : x.IsFormOf n) (hy : y.IsFormOf m) :
    Text.IsOperation ("(+ " ++ x ++ " " ++ y ++ ")") .add (· + ·) n m ∧
    Text.IsOperation ("(- " ++ x ++ " " ++ y ++ ")") .subtract (· - ·) n m ∧
    Text.IsChoice ("(if " ++ c ++ " " ++ x ++ " " ++ y ++ ")") k n m := by
  have hplus : ("(+ " ++ x ++ " " ++ y ++ ")" : Text) = Text.form "+" [x, y] :=
    (Text.form_pair "+" x y).symm
  have hminus : ("(- " ++ x ++ " " ++ y ++ ")" : Text) = Text.form "-" [x, y] :=
    (Text.form_pair "-" x y).symm
  have hif : ("(if " ++ c ++ " " ++ x ++ " " ++ y ++ ")" : Text) = Text.form "if" [c, x, y] :=
    (Text.form_triple "if" c x y).symm
  have hadd (a b : Int32) : Int32.ofInt (a.toInt + b.toInt) = a + b := by
    rw [Int32.ofInt_add, Int32.ofInt_toInt, Int32.ofInt_toInt]
  have hsub (a b : Int32) : Int32.ofInt (a.toInt - b.toInt) = a - b := by
    rw [Int32.ofInt_sub, Int32.ofInt_toInt, Int32.ofInt_toInt]
  rw [hplus, hminus, hif]
  refine ⟨?_, ?_, ?_⟩
  · apply Text.isOperation_of_parse (Text.parse_form_operator .add rfl hx hy)
    intro a b
    rw [hadd]
    rfl
  · apply Text.isOperation_of_parse (Text.parse_form_operator .subtract rfl hx hy)
    intro a b
    rw [hsub]
    rfl
  · exact Text.isChoice_of_parse (Text.parse_form_if hc hx hy)

/-- A sum past the greatest number wraps around, an empty sequence chooses the first branch, and the
same sequence is no operand. -/
theorem Text.eval_composed_past_greatest :
    let c := Text.ofString "(\n)"
    let x := Text.ofString "\t2147483647"
    let y := Text.ofString "(- 0 -1)"
    c.IsFormOf (.sequence []) ∧ x.IsFormOf (.number 2147483647) ∧
      y.IsFormOf (.binary .subtract (.number 0) (.number (-1))) ∧
      Text.eval ("(+ " ++ x ++ " " ++ y ++ ")") = .ok (.number (-2147483648)) ∧
      Text.eval ("(if " ++ c ++ " " ++ x ++ " " ++ y ++ ")") = .ok (.number 2147483647) ∧
      Text.eval ("(- " ++ x ++ " " ++ c ++ ")") =
        .error (.eval (.types (.operands .subtract (.number 2147483647) (.boolean true)))) := by
  intro c x y
  have hnumber {cs : List Char} {v : Int32} (h : SpellsInt cs v.toInt) :
      Derivation [.word cs] (.number v) := .number (Token.isAtom_of_word rfl) ⟨cs, rfl, h⟩
  have hzero : Derivation [.word "0".toList] (.number 0) := hnumber (integer?_eq_some_iff.mp rfl)
  have hone : Derivation [.word "-1".toList] (.number (-1)) := hnumber (integer?_eq_some_iff.mp rfl)
  have hctokens : c.tokens = [.leftParen, .rightParen] := (Text.tokens_ofChars _).trans (by decide)
  have hxtokens : x.tokens = [.word "2147483647".toList] :=
    (Text.tokens_ofChars _).trans (by decide)
  have hytokens : y.tokens = [.leftParen, .word "-".toList, .word "0".toList, .word "-1".toList,
    .rightParen] := (Text.tokens_ofChars _).trans (by decide)
  have hc : c.IsFormOf (.sequence []) := by
    rw [Text.IsFormOf, hctokens]
    exact ⟨.empty rfl rfl⟩
  have hx : x.IsFormOf (.number 2147483647) := by
    rw [Text.IsFormOf, hxtokens]
    exact ⟨hnumber (integer?_eq_some_iff.mp rfl)⟩
  have hy : y.IsFormOf (.binary .subtract (.number 0) (.number (-1))) := by
    rw [Text.IsFormOf, hytokens]
    exact ⟨.binary rfl rfl rfl rfl (.cons hzero (.cons hone .nil)) rfl⟩
  obtain ⟨hsum, -, hchoice⟩ := Text.eval_composed hc hx hy
  obtain ⟨-, hdifference, -⟩ := Text.eval_composed hc hx hc
  refine ⟨hc, hx, hy, hsum.numbers _ _ rfl rfl, hchoice.chosen true rfl, ?_⟩
  exact hdifference.types _ _ rfl rfl (by decide)

end Composed

end TinyLisp

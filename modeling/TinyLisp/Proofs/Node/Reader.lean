import TinyLisp.Node.Parser

/-!
The readers of the parser as plain functions on the tokens that are left, and how such functions
follow one another.

A reader `Settles` on some tokens when it takes exactly these, whatever comes after them. `Run` says
all that reading can come to: it takes a stretch of the grammar, or stops at the first token that
cannot be there, or is out of tokens that some further ones would complete.
-/

namespace TinyLisp

/-- A function from the tokens that are left to an outcome and the tokens left after it. -/
def Reader (α : Type) := List Token → Except ParseFault α × List Token

def Reading.result {α : Type} {n : Nat} (r : Reading α n) : Except ParseFault α × List Token :=
  (r.outcome, r.rest)

namespace Reader

variable {α β : Type}

def map (f : α → β) (read : Reader α) : Reader β :=
  fun ts => ((read ts).1.map f, (read ts).2)

/-- One reader after the other, the second with what the first came to. -/
def bind (read : Reader α) (next : α → Reader β) : Reader β := fun ts =>
  match read ts with
  | (.error e, rest) => (.error e, rest)
  | (.ok x, rest) => next x rest

/-- One form. -/
def form : Reader Node
  | [] => (.error .unexpectedEnd, [])
  | t :: ts => (readForm t ts).result

/-- What follows an open parenthesis. -/
def body : Reader Node := fun ts => (readBody ts).result

/-- Exactly `n` forms and the close parenthesis after them. -/
def operands (n : Nat) : Reader (Operands n) := fun ts => (readOperands n ts).result

/-- Forms up to a close parenthesis, and that. -/
def items : Reader (List Node) := fun ts => (readItems ts).result

end Reader

/-- A token that is no parenthesis. -/
def Token.IsAtom (t : Token) : Prop := t.kind ≠ .openParen ∧ t.kind ≠ .closeParen

theorem Token.isAtom_of_word {t : Token} (h : t.kind = .word) : t.IsAtom := by
  constructor <;> simp [h]

namespace Reader

variable {t : Token} {ts : List Token}

theorem form_nil : form [] = (.error .unexpectedEnd, []) := rfl

theorem form_open (h : t.kind = .openParen) : form (t :: ts) = body ts := by
  rw [form, readForm, h]
  rfl

theorem form_close (h : t.kind = .closeParen) : form (t :: ts) = (.error .tooManyCloses, ts) := by
  rw [form, readForm, h]
  rfl

theorem form_atom (h : t.IsAtom) : form (t :: ts) = (t.atom, ts) := by
  rw [form, readForm]
  split
  · exact absurd ‹_› h.1
  · exact absurd ‹_› h.2
  · rfl
  · rfl

theorem body_nil : body [] = (.error .unexpectedEnd, []) := by
  rw [body, readBody]
  rfl

theorem body_close (h : t.formHead = .close) : body (t :: ts) = (.ok (.sequence []), ts) := by
  rw [body, readBody, h]
  rfl

theorem body_operator {op : Operator} (h : t.formHead = .operator op) :
    body (t :: ts) = (operands 2).map (fun xs => .binary op xs.1 xs.2.1) ts := by
  rw [body, readBody, h]
  rfl

theorem body_conditional (h : t.formHead = .conditional) :
    body (t :: ts) = (operands 3).map (fun xs => .conditional xs.1 xs.2.1 xs.2.2.1) ts := by
  rw [body, readBody, h]
  rfl

theorem body_item (h : t.formHead = .item) : body (t :: ts) = items.map .sequence (t :: ts) := by
  rw [body, readBody, h]
  rfl

theorem operands_nil (n : Nat) : operands n [] = (.error .unexpectedEnd, []) := by
  rw [operands, readOperands]
  rfl

theorem operands_zero_close (h : t.kind = .closeParen) : operands 0 (t :: ts) = (.ok (), ts) := by
  rw [operands, readOperands, if_pos h]
  rfl

theorem operands_zero_other (h : t.kind ≠ .closeParen) :
    operands 0 (t :: ts) = (.error (.unexpectedToken t.text), ts) := by
  rw [operands, readOperands, if_neg h]
  rfl

theorem operands_succ (n : Nat) :
    operands (n + 1) = form.bind fun x => (operands n).map fun xs => (x, xs) := by
  funext ts
  cases ts with
  | nil => exact operands_nil _
  | cons t ts =>
    rw [operands, readOperands, bind]
    cases h : (readForm t ts).outcome with
    | error e => simp only [h, form, Reading.result]
    | ok x =>
      simp only [h, form, Reading.result]
      rfl

theorem items_nil : items [] = (.error .unexpectedEnd, []) := by
  rw [items, readItems]
  rfl

theorem items_close (h : t.kind = .closeParen) : items (t :: ts) = (.ok [], ts) := by
  rw [items, readItems, if_pos h]
  rfl

theorem items_other (h : t.kind ≠ .closeParen) :
    items (t :: ts) = form.bind (fun x => items.map (x :: ·)) (t :: ts) := by
  rw [items, readItems, if_neg h, bind]
  cases h : (readForm t ts).outcome with
  | error e => simp only [h, form, Reading.result]
  | ok x =>
    simp only [h, form, Reading.result]
    rfl

/-- The reader takes exactly the given tokens, whatever comes after them. -/
def Settles {α : Type} (read : Reader α) (taken : List Token) (o : Except ParseFault α) : Prop :=
  ∀ us, read (taken ++ us) = (o, us)

section Settles

variable {α β : Type} {read read' : Reader α} {next : α → Reader β} {p q : List Token} {x : α}

theorem Settles.map {o : Except ParseFault α} (h : read.Settles p o) (f : α → β) :
    (read.map f).Settles p (o.map f) := by
  intro us
  rw [Reader.map, h us]

theorem Settles.bind {o : Except ParseFault β} (h : read.Settles p (.ok x))
    (hn : (next x).Settles q o) : (read.bind next).Settles (p ++ q) o := by
  intro us
  rw [Reader.bind, List.append_assoc, h (q ++ us)]
  exact hn us

theorem Settles.bind_error {e : ParseFault} (h : read.Settles p (.error e)) :
    (read.bind next).Settles p (.error e) := by
  intro us
  rw [Reader.bind, h us]

theorem Settles.cons {o : Except ParseFault α} (h : read'.Settles p o)
    (he : ∀ us, read (t :: us) = read' us) : read.Settles (t :: p) o := by
  intro us
  rw [List.cons_append, he, h us]

theorem Settles.congr {o : Except ParseFault α} (h : read'.Settles (t :: p) o)
    (he : ∀ us, read (t :: us) = read' (t :: us)) : read.Settles (t :: p) o := by
  intro us
  rw [List.cons_append, he]
  exact h us

end Settles

end Reader

/-- A fault that the given token is to blame for when it turns up inside a form. -/
def ParseFault.StopsForm : ParseFault → Token → Prop
  | .tooManyCloses, t => t.kind = .closeParen
  | .invalidToken x, t | .unexpectedToken x, t => x = t.text
  | .unexpectedEnd, _ | .missingOpen _, _ | .trailingTokens _, _ => False

namespace Reader

/-- All that reading can come to, for a reader that accepts the relation `G`. -/
inductive Run {α : Type} (G : List Token → α → Prop) (read : Reader α) (ts : List Token) : Prop
  | done {taken rest : List Token} {x : α} (hts : ts = taken ++ rest) (hx : G taken x)
  | failed {taken rest : List Token} {t : Token} {e : ParseFault} (hts : ts = taken ++ t :: rest)
      (hb : e.StopsForm t) (hs : read.Settles (taken ++ [t]) (.error e))
  | unfinished {more : List Token} {x : α} (hr : read ts = (.error .unexpectedEnd, []))
      (hx : G (ts ++ more) x)

section Run

variable {α β : Type} {G : List Token → α → Prop} {H : List Token → β → Prop}
  {read : Reader α} {ts : List Token} {t : Token}

theorem Run.failed_head {e : ParseFault} (hb : e.StopsForm t)
    (he : ∀ us, read (t :: us) = (.error e, us)) : Run G read (t :: ts) :=
  .failed (List.nil_append _).symm hb he

theorem Run.map (h : Run G read ts) (f : α → β) (hH : ∀ {p x}, G p x → H p (f x)) :
    Run H (read.map f) ts := by
  cases h with
  | done hts hx => exact .done hts (hH hx)
  | failed hts hb hs => exact .failed hts hb (hs.map f)
  | unfinished hr hx =>
    refine .unfinished ?_ (hH hx)
    rw [Reader.map, hr]
    rfl

/-- A token in front that the reader skips before it goes on like another one. -/
theorem Run.cons {read' : Reader α} {F : List Token → α → Prop} (h : Run G read' ts)
    (he : ∀ us, read (t :: us) = read' us) (hF : ∀ {p x}, G p x → F (t :: p) x) :
    Run F read (t :: ts) := by
  cases h with
  | done hts hx => exact .done (congrArg (t :: ·) hts) (hF hx)
  | @failed p rest u e hts hb hs =>
    have hs' : read.Settles ((t :: p) ++ [u]) (.error e) := hs.cons he
    exact .failed (congrArg (t :: ·) hts) hb hs'
  | unfinished hr hx => exact .unfinished ((he ts).trans hr) (hF hx)

theorem Run.congr {read' : Reader α} (h : Run G read' (t :: ts))
    (he : ∀ us, read (t :: us) = read' (t :: us)) : Run G read (t :: ts) := by
  cases h with
  | done hts hx => exact .done hts hx
  | @failed taken rest u e hts hb hs =>
    refine .failed hts hb ?_
    cases taken with
    | nil =>
      cases hts
      exact hs.congr he
    | cons a p =>
      cases hts
      exact hs.congr he
  | unfinished hr hx => exact .unfinished ((he ts).trans hr) hx

/-- What is taken begins with the first token there is. -/
theorem Run.head (h : Run G read (t :: ts)) (hne : ∀ {p x}, G p x → p ≠ []) :
    Run (fun p x => p.head? = some t ∧ G p x) read (t :: ts) := by
  cases h with
  | @done taken rest x hts hx =>
    refine .done hts ⟨?_, hx⟩
    cases taken with
    | nil => exact absurd rfl (hne hx)
    | cons u p =>
      cases hts
      rfl
  | failed hts hb hs => exact .failed hts hb hs
  | unfinished hr hx => exact .unfinished hr ⟨rfl, hx⟩

/-- Reading goes on after the first part, and what is missing there can be made up for. -/
theorem Run.bind {next : α → Reader β} {F : α → List Token → β → Prop} (h : Run G read ts)
    (hn : ∀ x rest, rest.length < ts.length → Run (F x) (next x) rest)
    (hG : ∀ {p x}, G p x → read.Settles p (.ok x)) (hne : ∀ {p x}, G p x → p ≠ [])
    (hF : ∀ x, ∃ us y, F x us y) (hH : ∀ {p q x y}, G p x → F x q y → H (p ++ q) y) :
    Run H (read.bind next) ts := by
  cases h with
  | @done p rest x hts hx =>
    have hshort : rest.length < ts.length := by
      have hp := List.length_pos_iff.mpr (hne hx)
      rw [hts, List.length_append]
      omega
    subst hts
    cases hn x rest hshort with
    | done hrest hy =>
      subst hrest
      exact .done (List.append_assoc ..).symm (hH hx hy)
    | failed hrest hb hs =>
      subst hrest
      refine .failed (List.append_assoc ..).symm hb ?_
      rw [List.append_assoc]
      exact (hG hx).bind hs
    | unfinished hr hy =>
      refine .unfinished ?_ (List.append_assoc .. ▸ hH hx hy)
      rw [Reader.bind, hG hx rest]
      exact hr
  | failed hts hb hs => exact .failed hts hb hs.bind_error
  | @unfinished more x hr hx =>
    obtain ⟨us, y, hy⟩ := hF x
    refine .unfinished ?_ (List.append_assoc .. ▸ hH hx hy)
    rw [Reader.bind, hr]

/-- Nothing short of all the tokens that settle an outcome settles one already. -/
theorem Run.exists_more {o : Except ParseFault α} {p q : List Token} (h : Run G read p)
    (hG : ∀ {p x}, G p x → read.Settles p (.ok x)) (hs : read.Settles (p ++ q) o) (hq : q ≠ []) :
    ∃ more x, G (p ++ more) x := by
  have hall := hs []
  rw [List.append_nil] at hall
  cases h with
  | @done taken rest x hts hx =>
    rw [hts, List.append_assoc, hG hx] at hall
    have hrest := (Prod.mk.inj hall).2
    exact absurd (List.append_eq_nil_iff.mp hrest).2 hq
  | @failed taken rest u e hts hb he =>
    have hcut : p ++ q = taken ++ [u] ++ (rest ++ q) := by simp [hts]
    rw [hcut, he] at hall
    have hrest := (Prod.mk.inj hall).2
    exact absurd (List.append_eq_nil_iff.mp hrest).2 hq
  | unfinished hr hx => exact ⟨_, _, hx⟩

end Run

end Reader

end TinyLisp

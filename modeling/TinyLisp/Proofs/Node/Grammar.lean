import TinyLisp.Node.Printer
import TinyLisp.Proofs.Node.Reader
import TinyLisp.Proofs.Text.Decimal
import TinyLisp.Proofs.Token.Scan

/-!
The grammar of expressions, over tokens whose kinds and texts need not go together.

`Derivation ts n` is the type of derivations of the tree `n` from the tokens `ts`. Reading accepts
exactly what has a derivation, and nothing has two.
-/

namespace TinyLisp

namespace Token

/-- The text is a decimal numeral, worth `v`. -/
def Spells (t : Token) (v : Int32) : Prop :=
  ∃ cs, t.text = Text.ofChars cs ∧ SpellsInt cs v.toInt

/-- A word that settles what the form is that it stands first in. -/
def IsKeyword (t : Token) : Prop :=
  t.kind = .word ∧ (t.text = Text.ofString "+" ∨ t.text = Text.ofString "-" ∨
    t.text = Text.ofString "if")

end Token

mutual

/-- A derivation of a tree from the tokens of one form. -/
inductive Derivation : List Token → Node → Type
  | boolean {t : Token} {b : Bool} (ht : t.IsAtom) (hx : t.text = Text.ofChars (spellBool b)) :
      Derivation [t] (.boolean b)
  | number {t : Token} {v : Int32} (ht : t.IsAtom) (hx : t.Spells v) :
      Derivation [t] (.number v)
  | empty {o c : Token} (ho : o.kind = .openParen) (hc : c.kind = .closeParen) :
      Derivation [o, c] (.sequence [])
  | binary {o w c : Token} {op : Operator} {ts : List Token} {l r : Node}
      (ho : o.kind = .openParen) (hw : w.kind = .word) (hop : op.isKnown)
      (hx : w.text = Text.ofString op.symbol) (ds : Derivations ts [l, r])
      (hc : c.kind = .closeParen) : Derivation (o :: w :: (ts ++ [c])) (.binary op l r)
  | conditional {o w c : Token} {ts : List Token} {x y z : Node}
      (ho : o.kind = .openParen) (hw : w.kind = .word) (hx : w.text = Text.ofString "if")
      (ds : Derivations ts [x, y, z]) (hc : c.kind = .closeParen) :
      Derivation (o :: w :: (ts ++ [c])) (.conditional x y z)
  | sequence {o c : Token} {ts : List Token} {n : Node} {ns : List Node}
      (ho : o.kind = .openParen) (ds : Derivations ts (n :: ns))
      (hk : ∀ t ∈ ts.head?, ¬t.IsKeyword) (hc : c.kind = .closeParen) :
      Derivation (o :: (ts ++ [c])) (.sequence (n :: ns))

/-- Derivations of trees from the tokens of as many forms in a row. -/
inductive Derivations : List Token → List Node → Type
  | nil : Derivations [] []
  | cons {ts us : List Token} {n : Node} {ns : List Node} (d : Derivation ts n)
      (ds : Derivations us ns) : Derivations (ts ++ us) (n :: ns)

end

section FormHead

variable {t : Token} {op : Operator}

theorem Operator.ofSymbol?_eq_some_iff {x : Text} :
    Operator.ofSymbol? x = some op ↔ op.isKnown ∧ x = Text.ofString op.symbol := by
  constructor
  · intro h
    rw [Operator.ofSymbol?] at h
    split at h
    · cases h
      exact ⟨rfl, by assumption⟩
    · split at h
      · cases h
        exact ⟨rfl, by assumption⟩
      · cases h
  · rintro ⟨hop, rfl⟩
    cases op with
    | add => rfl
    | subtract => rfl
    | unknown => cases hop

theorem Operator.ofSymbol?_eq_none_iff {x : Text} :
    Operator.ofSymbol? x = none ↔ x ≠ Text.ofString "+" ∧ x ≠ Text.ofString "-" := by
  rw [Operator.ofSymbol?]
  split
  · simp_all
  · split <;> simp_all

theorem Operator.isKeyword_of_symbol (hw : t.kind = .word) (hop : op.isKnown)
    (hx : t.text = Text.ofString op.symbol) : t.IsKeyword := by
  cases op with
  | add => exact ⟨hw, .inl hx⟩
  | subtract => exact ⟨hw, .inr (.inl hx)⟩
  | unknown => cases hop

/-- What a form is, by the grammar, when the given token stands first in it. -/
inductive Token.Heads (t : Token) : FormHead → Prop
  | close (h : t.kind = .closeParen) : t.Heads .close
  | operator {op : Operator} (hw : t.kind = .word) (hop : op.isKnown)
      (hx : t.text = Text.ofString op.symbol) : t.Heads (.operator op)
  | conditional (hw : t.kind = .word) (hx : t.text = Text.ofString "if") : t.Heads .conditional
  | item (hc : t.kind ≠ .closeParen) (hk : ¬t.IsKeyword) : t.Heads .item

theorem Token.heads_formHead (t : Token) : t.Heads t.formHead := by
  rw [Token.formHead]
  split
  · exact .close (by assumption)
  · rename_i hw
    split
    · rename_i hop
      obtain ⟨hop, hx⟩ := Operator.ofSymbol?_eq_some_iff.mp hop
      exact .operator hw hop hx
    · rename_i hop
      obtain ⟨hplus, hminus⟩ := Operator.ofSymbol?_eq_none_iff.mp hop
      split
      · exact .conditional hw (by assumption)
      · rename_i hif
        refine .item (by simp [hw]) ?_
        rintro ⟨_, hx | hx | hx⟩
        · exact hplus hx
        · exact hminus hx
        · exact hif hx
  · rename_i ho
    refine .item (by simp [ho]) ?_
    rintro ⟨hw, _⟩
    rw [ho] at hw
    cases hw
  · rename_i hi
    refine .item (by simp [hi]) ?_
    rintro ⟨hw, _⟩
    rw [hi] at hw
    cases hw

theorem Token.Heads.formHead_eq {a : FormHead} (h : t.Heads a) : t.formHead = a := by
  cases h with
  | close h => rw [Token.formHead, h]
  | operator hw hop hx =>
    rw [Token.formHead, hw]
    simp only [Operator.ofSymbol?_eq_some_iff.mpr ⟨hop, hx⟩]
  | conditional hw hx =>
    rw [Token.formHead, hw, hx]
    rfl
  | item hc hk =>
    have ha := t.heads_formHead
    generalize t.formHead = a at ha ⊢
    cases ha with
    | close h => exact absurd h hc
    | operator hw hop hx => exact absurd (Operator.isKeyword_of_symbol hw hop hx) hk
    | conditional hw hx => exact absurd ⟨hw, .inr (.inr hx)⟩ hk
    | item => rfl

end FormHead

section Atom

variable {t : Token}

theorem Token.Spells.chars {v : Int32} (h : t.Spells v) : SpellsInt t.text.chars v.toInt := by
  obtain ⟨cs, ht, hs⟩ := h
  rwa [ht, Text.chars_ofChars]

theorem Token.Spells.text_ne {v : Int32} (h : t.Spells v) {c : Char} {cs : List Char}
    (hc : c.isDigit = false ∧ c ≠ '+' ∧ c ≠ '-') : t.text ≠ Text.ofChars (c :: cs) := by
  intro ht
  have hs := h.chars
  rw [ht, Text.chars_ofChars] at hs
  rcases hs.mem List.mem_cons_self with hd | hd | hd
  · rw [hc.1] at hd
    cases hd
  · exact hc.2.1 hd
  · exact hc.2.2 hd

theorem Token.int32?_eq_some_iff {v : Int32} : int32? t.text.chars = some v ↔ t.Spells v := by
  rw [TinyLisp.int32?_eq_some_iff]
  exact ⟨fun h => ⟨_, h.ofChars_chars.symm, h⟩, Token.Spells.chars⟩

theorem Token.atom_boolean {b : Bool} (h : t.text = Text.ofChars (spellBool b)) :
    t.atom = .ok (.boolean b) := by
  cases b with
  | true => rw [Token.atom, h]; rfl
  | false => rw [Token.atom, h]; rfl

theorem Token.atom_number {v : Int32} (h : t.Spells v) : t.atom = .ok (.number v) := by
  have htrue : t.text ≠ Text.ofString "true" := h.text_ne (by decide)
  have hfalse : t.text ≠ Text.ofString "false" := h.text_ne (by decide)
  rw [Token.atom, if_neg htrue, if_neg hfalse, Token.int32?_eq_some_iff.mpr h]

/-- A token that is no parenthesis is a literal, or to blame. -/
theorem Token.atom_cases (ht : t.IsAtom) :
    (∃ n, t.atom = .ok n ∧ Nonempty (Derivation [t] n)) ∨
      t.atom = .error (.invalidToken t.text) := by
  by_cases htrue : t.text = Text.ofString "true"
  · exact .inl ⟨_, Token.atom_boolean (b := true) htrue, ⟨.boolean ht htrue⟩⟩
  · by_cases hfalse : t.text = Text.ofString "false"
    · exact .inl ⟨_, Token.atom_boolean (b := false) hfalse, ⟨.boolean ht hfalse⟩⟩
    · cases hv : int32? t.text.chars with
      | some v =>
        have hs := Token.int32?_eq_some_iff.mp hv
        exact .inl ⟨_, Token.atom_number hs, ⟨.number ht hs⟩⟩
      | none =>
        right
        rw [Token.atom, if_neg htrue, if_neg hfalse, hv]

end Atom

section Settles

variable {ts : List Token} {n : Node} {ns : List Node}

def Operands.toList : (k : Nat) → Operands k → List Node
  | 0, _ => []
  | k + 1, (x, xs) => x :: Operands.toList k xs

theorem Derivation.head (d : Derivation ts n) : ∃ t us, ts = t :: us ∧ t.kind ≠ .closeParen := by
  cases d with
  | boolean ht => exact ⟨_, _, rfl, ht.2⟩
  | number ht => exact ⟨_, _, rfl, ht.2⟩
  | empty ho => exact ⟨_, _, rfl, by simp [ho]⟩
  | binary ho => exact ⟨_, _, rfl, by simp [ho]⟩
  | conditional ho => exact ⟨_, _, rfl, by simp [ho]⟩
  | sequence ho => exact ⟨_, _, rfl, by simp [ho]⟩

theorem Derivations.head (ds : Derivations ts (n :: ns)) :
    ∃ t us, ts = t :: us ∧ t.kind ≠ .closeParen := by
  cases ds with
  | cons d ds =>
    obtain ⟨t, us, rfl, ht⟩ := d.head
    exact ⟨t, _, rfl, ht⟩

theorem Derivations.eq_nil (ds : Derivations ts []) : ts = [] := by
  cases ds with
  | nil => rfl

mutual

/-- Reading a form takes all that was derived and comes to the tree that was derived. -/
theorem Derivation.settles {ts : List Token} {n : Node} (d : Derivation ts n) :
    Reader.form.Settles ts (.ok n) := by
  match d with
  | .boolean ht hx =>
    intro us
    rw [List.singleton_append, Reader.form_atom ht, Token.atom_boolean hx]
  | .number ht hx =>
    intro us
    rw [List.singleton_append, Reader.form_atom ht, Token.atom_number hx]
  | .empty ho hc =>
    intro us
    rw [List.cons_append, Reader.form_open ho, List.singleton_append,
      Reader.body_close (Token.Heads.close hc).formHead_eq]
  | @Derivation.binary o w c op ts l r ho hw hop hx ds hc =>
    have hhead := (Token.Heads.operator hw hop hx).formHead_eq
    have hs := ((ds.settles hc).2 2 (_, _, ()) rfl).map fun xs => Node.binary op xs.1 xs.2.1
    exact (hs.cons fun us => Reader.body_operator hhead).cons fun us => Reader.form_open ho
  | .conditional ho hw hx ds hc =>
    have hhead := (Token.Heads.conditional hw hx).formHead_eq
    have hs := ((ds.settles hc).2 3 (_, _, _, ()) rfl).map fun xs =>
      Node.conditional xs.1 xs.2.1 xs.2.2.1
    exact (hs.cons fun us => Reader.body_conditional hhead).cons fun us => Reader.form_open ho
  | .sequence ho ds hk hc =>
    have hs := (ds.settles hc).1.map Node.sequence
    obtain ⟨t, us, rfl, ht⟩ := ds.head
    have hhead := (Token.Heads.item ht (hk t rfl)).formHead_eq
    exact (hs.congr fun us => Reader.body_item hhead).cons fun us => Reader.form_open ho

/-- Forms in a row are read as items, and as operands where their number is known. -/
theorem Derivations.settles {ts : List Token} {ns : List Node} (ds : Derivations ts ns)
    {c : Token} (hc : c.kind = .closeParen) :
    Reader.items.Settles (ts ++ [c]) (.ok ns) ∧
      ∀ k (xs : Operands k), xs.toList = ns → (Reader.operands k).Settles (ts ++ [c]) (.ok xs) := by
  match ds with
  | .nil =>
    refine ⟨fun us => Reader.items_close hc, ?_⟩
    intro k xs hxs
    cases k with
    | zero => exact fun us => Reader.operands_zero_close hc
    | succ k => cases hxs
  | @Derivations.cons ts us m ms d ds =>
    have hd := d.settles
    have hds := ds.settles hc
    rw [List.append_assoc]
    constructor
    · have hs : (Reader.form.bind fun x => Reader.items.map (x :: ·)).Settles _ (.ok (m :: ms)) :=
        hd.bind (hds.1.map _)
      obtain ⟨t, us, rfl, ht⟩ := d.head
      exact hs.congr fun us => Reader.items_other ht
    · intro k xs hxs
      cases k with
      | zero => cases hxs
      | succ k =>
        obtain ⟨x, xs⟩ := xs
        cases hxs
        rw [Reader.operands_succ]
        exact hd.bind ((hds.2 k xs rfl).map _)

end

end Settles

/-- The tokens are those of one form, whose tree is `n`. -/
def Derives (ts : List Token) (n : Node) : Prop := Nonempty (Derivation ts n)

/-- Forms in a row and the close parenthesis after them. -/
def ClosedForms (ts : List Token) (ns : List Node) : Prop :=
  ∃ us c, ts = us ++ [c] ∧ c.kind = .closeParen ∧ Nonempty (Derivations us ns)

/-- What an open parenthesis in front makes a form. -/
def DerivesBody (ts : List Token) (n : Node) : Prop :=
  ∀ o : Token, o.kind = .openParen → Derives (o :: ts) n

section Run

variable {t : Token} {p q ts : List Token} {n : Node} {ns : List Node}

theorem Derives.settles (h : Derives ts n) : Reader.form.Settles ts (.ok n) := h.elim Derivation.settles

theorem Derives.ne_nil (h : Derives ts n) : ts ≠ [] := by
  obtain ⟨d⟩ := h
  obtain ⟨t, us, rfl, _⟩ := d.head
  simp

theorem ClosedForms.close (h : t.kind = .closeParen) : ClosedForms [t] [] :=
  ⟨[], t, rfl, h, ⟨.nil⟩⟩

theorem ClosedForms.ne_nil (h : ClosedForms ts ns) : ts ≠ [] := by
  obtain ⟨us, c, rfl, _⟩ := h
  simp

theorem ClosedForms.cons (h : Derives p n) (hs : ClosedForms q ns) :
    ClosedForms (p ++ q) (n :: ns) := by
  obtain ⟨d⟩ := h
  obtain ⟨us, c, rfl, hc, ⟨ds⟩⟩ := hs
  exact ⟨p ++ us, c, (List.append_assoc ..).symm, hc, ⟨.cons d ds⟩⟩

theorem ClosedForms.binary {op : Operator} {l r : Node} (hw : t.kind = .word) (hop : op.isKnown)
    (hx : t.text = Text.ofString op.symbol) (h : ClosedForms p [l, r]) :
    DerivesBody (t :: p) (.binary op l r) := by
  intro o ho
  obtain ⟨us, c, rfl, hc, ⟨ds⟩⟩ := h
  exact ⟨.binary ho hw hop hx ds hc⟩

theorem ClosedForms.conditional {x y z : Node} (hw : t.kind = .word)
    (hx : t.text = Text.ofString "if") (h : ClosedForms p [x, y, z]) :
    DerivesBody (t :: p) (.conditional x y z) := by
  intro o ho
  obtain ⟨us, c, rfl, hc, ⟨ds⟩⟩ := h
  exact ⟨.conditional ho hw hx ds hc⟩

theorem ClosedForms.sequence (h : ClosedForms p ns) (hp : p.head? = some t)
    (hc : t.kind ≠ .closeParen) (hk : ¬t.IsKeyword) : DerivesBody p (.sequence ns) := by
  intro o ho
  obtain ⟨us, c, rfl, hc', ⟨ds⟩⟩ := h
  cases us with
  | nil =>
    cases hp
    exact absurd hc' hc
  | cons u us =>
    cases hp
    cases ns with
    | nil => cases ds.eq_nil
    | cons n ns =>
      refine ⟨.sequence ho ds ?_ hc'⟩
      rintro _ ⟨⟩
      exact hk

/-- Any number of operands can be made up. -/
theorem exists_closedForms (k : Nat) : ∃ ts, ∃ xs : Operands k, ClosedForms ts xs.toList := by
  induction k with
  | zero => exact ⟨[.rightParen], (), .close rfl⟩
  | succ k ih =>
    obtain ⟨ts, xs, h⟩ := ih
    have hd : Derives [.word (spellBool true)] (.boolean true) :=
      ⟨.boolean ⟨by decide, by decide⟩ rfl⟩
    exact ⟨_, (_, xs), .cons hd h⟩

mutual

theorem form_run (ts : List Token) : Reader.Run Derives Reader.form ts := by
  match ts with
  | [] =>
    have hd : Derives ([] ++ [.leftParen, .rightParen]) (.sequence []) := ⟨.empty rfl rfl⟩
    exact .unfinished Reader.form_nil hd
  | t :: ts =>
    by_cases ho : t.kind = .openParen
    · exact (body_run ts).cons (fun us => Reader.form_open ho) fun h => h t ho
    · by_cases hc : t.kind = .closeParen
      · have hb : ParseFault.tooManyCloses.StopsForm t := hc
        exact .failed_head hb fun us => Reader.form_close hc
      · have ha : t.IsAtom := ⟨ho, hc⟩
        rcases t.atom_cases ha with ⟨n, hn, hd⟩ | he
        · exact .done (List.singleton_append).symm hd
        · have hb : (ParseFault.invalidToken t.text).StopsForm t := rfl
          exact .failed_head hb fun us => he ▸ Reader.form_atom ha
termination_by (ts.length, 0)

theorem body_run (ts : List Token) : Reader.Run DerivesBody Reader.body ts := by
  match ts with
  | [] =>
    have hd : DerivesBody ([] ++ [.rightParen]) (.sequence []) := fun o ho => ⟨.empty ho rfl⟩
    exact .unfinished Reader.body_nil hd
  | t :: ts =>
    have hhead := t.heads_formHead
    generalize hh : t.formHead = head at hhead
    cases hhead with
    | close hc =>
      have hd : DerivesBody [t] (.sequence []) := fun o ho => ⟨.empty ho hc⟩
      exact .done List.singleton_append.symm hd
    | @operator op hw hop hx =>
      refine ((operands_run 2 ts).map (H := fun p n => DerivesBody (t :: p) n) _ ?_).cons
        (fun us => Reader.body_operator hh) id
      exact fun h => ClosedForms.binary hw hop hx h
    | conditional hw hx =>
      refine ((operands_run 3 ts).map (H := fun p n => DerivesBody (t :: p) n) _ ?_).cons
        (fun us => Reader.body_conditional hh) id
      exact fun h => ClosedForms.conditional hw hx h
    | item hc hk =>
      -- The token that was looked at is read again, as the front of the first item.
      refine Reader.Run.congr ?_ fun us => Reader.body_item hh
      exact ((items_run (t :: ts)).head ClosedForms.ne_nil).map _ fun h =>
        h.2.sequence h.1 hc hk
termination_by (ts.length, 2)

theorem operands_run (k : Nat) (ts : List Token) :
    Reader.Run (fun us xs => ClosedForms us xs.toList) (Reader.operands k) ts := by
  match k, ts with
  | k, [] =>
    obtain ⟨us, xs, h⟩ := exists_closedForms k
    exact .unfinished (Reader.operands_nil k) h
  | 0, t :: ts =>
    by_cases hc : t.kind = .closeParen
    · have h : ClosedForms [t] (Operands.toList 0 ()) := .close hc
      exact .done List.singleton_append.symm h
    · have hb : (ParseFault.unexpectedToken t.text).StopsForm t := rfl
      exact .failed_head hb fun us => Reader.operands_zero_other hc
  | k + 1, t :: ts =>
    rw [Reader.operands_succ]
    refine (form_run (t :: ts)).bind (F := fun x us ys => ∃ xs, ys = (x, xs) ∧ ClosedForms us xs.toList)
      ?_ Derives.settles Derives.ne_nil ?_ ?_
    · intro x rest hshort
      exact (operands_run k rest).map _ fun h => ⟨_, rfl, h⟩
    · intro x
      obtain ⟨us, xs, h⟩ := exists_closedForms k
      exact ⟨us, _, xs, rfl, h⟩
    · rintro p q x _ hx ⟨xs, rfl, h⟩
      exact .cons hx h
termination_by (ts.length, 1)

theorem items_run (ts : List Token) : Reader.Run ClosedForms Reader.items ts := by
  match ts with
  | [] =>
    have h : ClosedForms ([] ++ [.rightParen]) [] := .close rfl
    exact .unfinished Reader.items_nil h
  | t :: ts =>
    by_cases hc : t.kind = .closeParen
    · exact .done List.singleton_append.symm (ClosedForms.close hc)
    · refine Reader.Run.congr ?_ fun us => Reader.items_other hc
      refine (form_run (t :: ts)).bind (F := fun x us ys => ∃ xs, ys = x :: xs ∧ ClosedForms us xs)
        ?_ Derives.settles Derives.ne_nil ?_ ?_
      · intro x rest hshort
        exact (items_run rest).map _ fun h => ⟨_, rfl, h⟩
      · intro x
        exact ⟨_, _, _, rfl, .close (t := .rightParen) rfl⟩
      · rintro p q x _ hx ⟨xs, rfl, h⟩
        exact .cons hx h
termination_by (ts.length, 1)

end

end Run

section Unique

variable {us us' : List Token} {n n' : Node}

theorem Derives.append_inj {ts ts' : List Token} (h : Derives ts n) (h' : Derives ts' n')
    (he : ts ++ us = ts' ++ us') : ts = ts' ∧ us = us' ∧ n = n' := by
  have hr := h.settles us
  rw [he, h'.settles us'] at hr
  obtain ⟨hn, rfl⟩ := Prod.mk.inj hr
  cases hn
  exact ⟨List.append_cancel_right he, rfl, rfl⟩

mutual

theorem Derivation.heq {ts ts' : List Token} {n n' : Node} (d : Derivation ts n)
    (d' : Derivation ts' n') (hts : ts = ts') (hn : n = n') : HEq d d' := by
  match d with
  | .boolean ht hx =>
    cases hn
    cases d'
    cases hts
    rfl
  | .number ht hx =>
    cases hn
    cases d'
    cases hts
    rfl
  | .empty ho hc =>
    cases hn
    cases d'
    cases hts
    rfl
  | .binary ho hw hop hx ds hc =>
    cases hn
    cases d' with
    | binary ho' hw' hop' hx' ds' hc' =>
      obtain ⟨rfl, hbody⟩ := List.cons.inj hts
      obtain ⟨rfl, hforms⟩ := List.cons.inj hbody
      obtain ⟨rfl, rfl⟩ := List.append_singleton_inj.mp hforms
      cases ds.heq ds' rfl rfl
      rfl
  | .conditional ho hw hx ds hc =>
    cases hn
    cases d' with
    | conditional ho' hw' hx' ds' hc' =>
      obtain ⟨rfl, hbody⟩ := List.cons.inj hts
      obtain ⟨rfl, hforms⟩ := List.cons.inj hbody
      obtain ⟨rfl, rfl⟩ := List.append_singleton_inj.mp hforms
      cases ds.heq ds' rfl rfl
      rfl
  | .sequence ho ds hk hc =>
    cases hn
    cases d' with
    | sequence ho' ds' hk' hc' =>
      obtain ⟨rfl, hforms⟩ := List.cons.inj hts
      obtain ⟨rfl, rfl⟩ := List.append_singleton_inj.mp hforms
      cases ds.heq ds' rfl rfl
      rfl

theorem Derivations.heq {ts ts' : List Token} {ns ns' : List Node} (ds : Derivations ts ns)
    (ds' : Derivations ts' ns') (hts : ts = ts') (hns : ns = ns') : HEq ds ds' := by
  match ds with
  | .nil =>
    cases hns
    cases ds' with
    | nil => rfl
  | .cons d ds =>
    cases hns
    cases ds' with
    | cons d' ds' =>
      obtain ⟨rfl, rfl, -⟩ := Derives.append_inj ⟨d⟩ ⟨d'⟩ hts
      cases d.heq d' rfl rfl
      cases ds.heq ds' rfl rfl
      rfl

end

end Unique

section Accepted

variable {t : Token} {ts rest : List Token} {n : Node}

/-- What reading a form comes to when it succeeds has been derived. -/
theorem Derives.of_form (h : Reader.form ts = (.ok n, rest)) :
    ∃ taken, ts = taken ++ rest ∧ Derives taken n := by
  cases form_run ts with
  | done hts hx =>
    subst hts
    rw [hx.settles] at h
    cases h
    exact ⟨_, rfl, hx⟩
  | @failed taken rest u e hts hb hs =>
    subst hts
    have hf := hs rest
    rw [List.append_assoc, List.singleton_append, h] at hf
    cases hf
  | unfinished hr hx =>
    rw [h] at hr
    cases hr

theorem Node.ofTokens_open (h : t.kind = .openParen) :
    Node.ofTokens (t :: ts) =
      match Reader.form (t :: ts) with
      | (.error e, _) => .error e
      | (.ok n, []) => .ok n
      | (.ok _, u :: _) => .error (.trailingTokens u.text) := by
  rw [Node.ofTokens, h, Reader.form, Reading.result]
  cases ho : (readForm t ts).outcome with
  | error e => simp only [ho]
  | ok n => cases hr : (readForm t ts).rest <;> simp only [ho, hr]

theorem Node.kind_of_ofTokens (h : Node.ofTokens (t :: ts) = .ok n) : t.kind = .openParen := by
  rw [Node.ofTokens] at h
  split at h
  · assumption
  · cases h
  · cases h
  · cases h

theorem Node.ofTokens_eq_ok_iff :
    Node.ofTokens ts = .ok n ↔ (∃ t ∈ ts.head?, t.kind = .openParen) ∧ Derives ts n := by
  constructor
  · intro h
    cases ts with
    | nil => cases h
    | cons t ts =>
      have ho := Node.kind_of_ofTokens h
      refine ⟨⟨t, rfl, ho⟩, ?_⟩
      rw [Node.ofTokens_open ho] at h
      split at h
      · cases h
      · rename_i hf
        cases h
        obtain ⟨taken, hts, hd⟩ := Derives.of_form hf
        rwa [hts, List.append_nil]
      · cases h
  · rintro ⟨⟨t, ht, ho⟩, hd⟩
    cases ts with
    | nil => cases ht
    | cons u ts =>
      cases ht
      have hf := hd.settles []
      rw [List.append_nil] at hf
      rw [Node.ofTokens_open ho, hf]

/-- Reading accepts exactly the parenthesised forms of the grammar, and each has one derivation. -/
theorem Node.ofTokens_accepts_grammar (ts : List Token) (n : Node) :
    (Node.ofTokens ts = .ok n ↔
      (∃ t ∈ ts.head?, t.kind = .openParen) ∧ Nonempty (Derivation ts n)) ∧
    (Node.ofTokens ts = .ok n →
      ∃ d : Derivation ts n, ∀ d' : (m : Node) × Derivation ts m, d' = ⟨n, d⟩) := by
  refine ⟨Node.ofTokens_eq_ok_iff, ?_⟩
  intro h
  obtain ⟨_, ⟨d⟩⟩ := Node.ofTokens_eq_ok_iff.mp h
  refine ⟨d, ?_⟩
  rintro ⟨m, d'⟩
  obtain ⟨-, -, rfl⟩ := Derives.append_inj ⟨d⟩ ⟨d'⟩ (rfl : ts ++ [] = ts ++ [])
  cases d.heq d' rfl rfl
  rfl

/-- Only the kinds of the parentheses count, and a numeral need not be a word. -/
theorem Node.ofTokens_accepts_odd_tokens :
    let ts : List Token := [⟨.openParen, []⟩, ⟨.word, Text.ofString "-"⟩,
      ⟨.invalid 0, Text.ofString "+07"⟩, ⟨.word, Text.ofString "true"⟩,
      ⟨.closeParen, Text.ofString "("⟩]
    let n : Node := .binary .subtract (.number 7) (.boolean true)
    Node.ofTokens ts = .ok n ∧
      ∃ d : Derivation ts n, ∀ d' : (m : Node) × Derivation ts m, d' = ⟨n, d⟩ := by
  intro ts n
  have hseven : (⟨.invalid 0, Text.ofString "+07"⟩ : Token).Spells 7 :=
    ⟨"+07".toList, rfl, integer?_eq_some_iff.mp rfl⟩
  have left : Derivation [⟨.invalid 0, Text.ofString "+07"⟩] (.number 7) :=
    .number ⟨by decide, by decide⟩ hseven
  have right : Derivation [⟨.word, Text.ofString "true"⟩] (.boolean true) :=
    .boolean ⟨by decide, by decide⟩ rfl
  have hd : Nonempty (Derivation ts n) :=
    ⟨.binary rfl rfl rfl rfl (.cons left (.cons right .nil)) rfl⟩
  have h := (Node.ofTokens_accepts_grammar ts n).1.mpr ⟨⟨_, rfl, rfl⟩, hd⟩
  exact ⟨h, (Node.ofTokens_accepts_grammar ts n).2 h⟩

end Accepted

end TinyLisp

import TinyLisp.Proofs.Node.RoundTrip

/-!
What trees built by hand are read back as.

An operator without a spelling leaves a sequence of its operands behind, and a tree that has all its
subtrees is read back as such. The mark of a missing subtree is no token of the language: reading
gets as far as the first one, wherever it stands, and stops there.
-/

namespace TinyLisp

namespace Node

mutual

/-- A subtree is missing, here or further down. -/
def HasNil : Node → Prop
  | .nil => True
  | .number _ | .boolean _ => False
  | .binary _ l r => l.HasNil ∨ r.HasNil
  | .conditional c y n => c.HasNil ∨ y.HasNil ∨ n.HasNil
  | .sequence items => AnyHasNil items

def AnyHasNil : List Node → Prop
  | [] => False
  | n :: ns => n.HasNil ∨ AnyHasNil ns

end

mutual

/-- The tree with a sequence of the operands in place of every operation that has no spelling. -/
def asWritten : Node → Node
  | .nil => .nil
  | .number v => .number v
  | .boolean b => .boolean b
  | .binary op l r =>
    if op.isKnown then .binary op l.asWritten r.asWritten
    else .sequence [l.asWritten, r.asWritten]
  | .conditional c y n => .conditional c.asWritten y.asWritten n.asWritten
  | .sequence items => .sequence (allAsWritten items)

def allAsWritten : List Node → List Node
  | [] => []
  | n :: ns => n.asWritten :: allAsWritten ns

end

end Node

section AsWritten

variable {op : Operator} {n : Node}

theorem Operator.tokens_of_not_isKnown (h : ¬op.isKnown) : op.tokens = [] := by
  cases op with
  | add => exact absurd rfl h
  | subtract => exact absurd rfl h
  | unknown => rfl

mutual

theorem Node.tokens_asWritten (n : Node) : n.asWritten.tokens = n.tokens := by
  match n with
  | .nil => rfl
  | .number v => rfl
  | .boolean b => rfl
  | .binary op l r =>
    rw [Node.asWritten]
    split
    · rw [Node.tokens, Node.tokens, l.tokens_asWritten, r.tokens_asWritten]
    · rename_i hop
      rw [Node.tokens, Node.tokens, Operator.tokens_of_not_isKnown hop]
      simp [Node.tokensAll, l.tokens_asWritten, r.tokens_asWritten]
  | .conditional c y n =>
    rw [Node.asWritten, Node.tokens, Node.tokens, c.tokens_asWritten, y.tokens_asWritten,
      n.tokens_asWritten]
  | .sequence items => rw [Node.asWritten, Node.tokens, Node.tokens, Node.tokens_allAsWritten items]

theorem Node.tokens_allAsWritten (ns : List Node) :
    Node.tokensAll (Node.allAsWritten ns) = Node.tokensAll ns := by
  match ns with
  | [] => rfl
  | n :: ns =>
    rw [Node.allAsWritten, Node.tokensAll, Node.tokensAll, n.tokens_asWritten,
      Node.tokens_allAsWritten ns]

end

mutual

theorem Node.wellFormed_asWritten {n : Node} (h : ¬n.HasNil) : n.asWritten.WellFormed := by
  match n, h with
  | .nil, h => exact absurd trivial h
  | .number v, _ => trivial
  | .boolean b, _ => trivial
  | .binary op l r, h =>
    obtain ⟨hl, hr⟩ := not_or.mp h
    have hl' := Node.wellFormed_asWritten hl
    have hr' := Node.wellFormed_asWritten hr
    rw [Node.asWritten]
    split
    · exact ⟨by assumption, hl', hr'⟩
    · exact ⟨hl', hr', trivial⟩
  | .conditional c y n, h =>
    obtain ⟨hc, hbranches⟩ := not_or.mp h
    obtain ⟨hy, hn⟩ := not_or.mp hbranches
    exact ⟨Node.wellFormed_asWritten hc, Node.wellFormed_asWritten hy, Node.wellFormed_asWritten hn⟩
  | .sequence items, h => exact Node.allWellFormed_asWritten h

theorem Node.allWellFormed_asWritten {ns : List Node} (h : ¬Node.AnyHasNil ns) :
    Node.AllWellFormed (Node.allAsWritten ns) := by
  match ns, h with
  | [], _ => trivial
  | n :: ns, h =>
    obtain ⟨hn, hns⟩ := not_or.mp h
    exact ⟨Node.wellFormed_asWritten hn, Node.allWellFormed_asWritten hns⟩

end

theorem Node.derives_asWritten (h : ¬n.HasNil) : Derives n.tokens n.asWritten := by
  have hd := (Node.wellFormed_asWritten h).derives
  rwa [n.tokens_asWritten] at hd

end AsWritten

namespace Reader

variable {α β : Type} {read read' : Reader α} {next : α → Reader β} {p q : List Token} {t : Token}
  {e : ParseFault} {x : α}

/-- The reader fails on the given tokens, whatever comes after them. -/
def Fails {α : Type} (read : Reader α) (ts : List Token) (e : ParseFault) : Prop :=
  ∀ us, (read (ts ++ us)).1 = .error e

theorem Fails.append (h : read.Fails p e) (q : List Token) : read.Fails (p ++ q) e := by
  intro us
  rw [List.append_assoc]
  exact h (q ++ us)

theorem Fails.map (h : read.Fails p e) (f : α → β) : (read.map f).Fails p e := by
  intro us
  rw [Reader.map, h us]
  rfl

theorem Fails.bind (h : read.Fails p e) : (read.bind next).Fails p e := by
  intro us
  have hr := h us
  rw [Reader.bind]
  generalize read (p ++ us) = r at hr ⊢
  obtain ⟨o, rest⟩ := r
  obtain rfl : o = .error e := hr
  rfl

theorem Settles.bind_fails (h : read.Settles p (.ok x)) (hn : (next x).Fails q e) :
    (read.bind next).Fails (p ++ q) e := by
  intro us
  rw [Reader.bind, List.append_assoc, h (q ++ us)]
  exact hn us

theorem Fails.cons (h : read'.Fails p e) (he : ∀ us, read (t :: us) = read' us) :
    read.Fails (t :: p) e := by
  intro us
  rw [List.cons_append, he]
  exact h us

theorem Fails.congr (h : read'.Fails (t :: p) e) (he : ∀ us, read (t :: us) = read' (t :: us)) :
    read.Fails (t :: p) e := by
  intro us
  rw [List.cons_append, he]
  exact h us

end Reader

section Nil

variable {n : Node} {ns : List Node}

/-- What reading comes to at the mark of a missing subtree. -/
def nilFault : ParseFault := .invalidToken (Text.ofString ":nil")

theorem Reader.fails_nil : Reader.form.Fails Node.nil.tokens nilFault := by
  intro us
  have hatom : (Token.word ":nil".toList).atom = .error nilFault := by
    have hnone : int32? (Token.word ":nil".toList).text.chars = none := by
      rw [Token.word, Text.chars_ofChars]
      rfl
    rw [Token.atom, hnone]
    rfl
  rw [Node.tokens, List.singleton_append, Reader.form_atom (Token.isAtom_of_word rfl), hatom]

theorem Node.exists_head_tokens (n : Node) :
    ∃ t us, n.tokens = t :: us ∧ t.formHead = .item := by
  cases n with
  | nil => exact ⟨_, _, rfl, rfl⟩
  | number v =>
    have hs : (Token.word (decimal v.toInt)).Spells v := ⟨_, rfl, spellsInt_decimal _⟩
    exact ⟨_, _, rfl, (Token.Heads.item (by simp [Token.word]) hs.not_isKeyword).formHead_eq⟩
  | boolean b => cases b <;> exact ⟨_, _, rfl, rfl⟩
  | binary => exact ⟨_, _, rfl, rfl⟩
  | conditional => exact ⟨_, _, rfl, rfl⟩
  | sequence => exact ⟨_, _, rfl, rfl⟩

theorem Token.kind_ne_of_formHead {t : Token} (h : t.formHead = .item) : t.kind ≠ .closeParen := by
  intro hc
  rw [Token.formHead, hc] at h
  cases h

theorem Reader.fails_items {p : List Token}
    (h : (Reader.form.bind fun x => Reader.items.map (x :: ·)).Fails (n.tokens ++ p) nilFault) :
    Reader.items.Fails (n.tokens ++ p) nilFault := by
  obtain ⟨t, us, ht, hhead⟩ := n.exists_head_tokens
  rw [ht] at h ⊢
  exact h.congr fun us => Reader.items_other (Token.kind_ne_of_formHead hhead)

/-- Of trees in a row, reading gets past those that lack nothing and stops in the first other
one. -/
theorem Node.AnyHasNil.fails (h : Node.AnyHasNil ns)
    (hfails : ∀ n ∈ ns, n.HasNil → Reader.form.Fails n.tokens nilFault) :
    Reader.items.Fails (Node.tokensAll ns) nilFault ∧
      (Reader.operands ns.length).Fails (Node.tokensAll ns) nilFault := by
  induction ns with
  | nil => cases h
  | cons n ns ih =>
    obtain ⟨hfirst, hrest⟩ := List.forall_mem_cons.mp hfails
    rw [Node.tokensAll, List.length_cons, Reader.operands_succ]
    by_cases hn : n.HasNil
    · have hf := (hfirst hn).append (Node.tokensAll ns)
      exact ⟨Reader.fails_items hf.bind, hf.bind⟩
    · have hd := (Node.derives_asWritten hn).settles
      obtain ⟨hitems, hoperands⟩ := ih (h.resolve_left hn) hrest
      exact ⟨Reader.fails_items (hd.bind_fails (hitems.map _)), hd.bind_fails (hoperands.map _)⟩

theorem Reader.fails_sequence (h : Reader.items.Fails (Node.tokensAll (n :: ns)) nilFault) :
    Reader.form.Fails (.leftParen :: (Node.tokensAll (n :: ns) ++ [.rightParen])) nilFault := by
  obtain ⟨t, us, ht, hhead⟩ := n.exists_head_tokens
  rw [Node.tokensAll, ht] at h ⊢
  have hbody := ((h.append [.rightParen]).map Node.sequence).congr fun us => Reader.body_item hhead
  exact hbody.cons fun us => Reader.form_open rfl

theorem Reader.fails_operation {t : Token} {f : Operands ns.length → Node}
    (h : (Reader.operands ns.length).Fails (Node.tokensAll ns) nilFault)
    (hbody : ∀ us, Reader.body (t :: us) = (Reader.operands ns.length).map f us) :
    Reader.form.Fails (.leftParen :: t :: (Node.tokensAll ns ++ [.rightParen])) nilFault := by
  have hfails := ((h.append [.rightParen]).map f).cons hbody
  exact hfails.cons fun us => Reader.form_open rfl

mutual

/-- Reading a tree that lacks a subtree stops at the first mark of one. -/
theorem Node.fails_of_hasNil (n : Node) (h : n.HasNil) : Reader.form.Fails n.tokens nilFault := by
  match n, h with
  | .nil, _ => exact Reader.fails_nil
  | .binary op l r, h =>
    have hany : Node.AnyHasNil [l, r] := h.imp_right .inl
    obtain ⟨hitems, hoperands⟩ := hany.fails <| List.forall_mem_cons.mpr
      ⟨l.fails_of_hasNil, List.forall_mem_singleton.mpr r.fails_of_hasNil⟩
    by_cases hop : op.isKnown
    · have hhead : (Token.word op.symbol.toList).formHead = .operator op :=
        (Token.Heads.operator rfl hop rfl).formHead_eq
      have hform := Reader.fails_operation hoperands fun us => Reader.body_operator hhead
      simpa [Node.tokens, Node.tokensAll, Operator.tokens_eq hop] using hform
    · -- Nothing is left of the operator, and the operands are read as items.
      have hform := Reader.fails_sequence hitems
      simpa [Node.tokens, Node.tokensAll, Operator.tokens_of_not_isKnown hop] using hform
  | .conditional c y z, h =>
    have hany : Node.AnyHasNil [c, y, z] := h.imp_right fun h => h.imp_right .inl
    obtain ⟨-, hoperands⟩ := hany.fails <| List.forall_mem_cons.mpr
      ⟨c.fails_of_hasNil, List.forall_mem_cons.mpr
        ⟨y.fails_of_hasNil, List.forall_mem_singleton.mpr z.fails_of_hasNil⟩⟩
    have hhead : (Token.word "if".toList).formHead = .conditional := rfl
    have hform := Reader.fails_operation hoperands fun us => Reader.body_conditional hhead
    simpa [Node.tokens, Node.tokensAll] using hform
  | .sequence (n :: ns), h =>
    obtain ⟨hitems, -⟩ := Node.AnyHasNil.fails h (Node.all_fails_of_hasNil (n :: ns))
    exact Reader.fails_sequence hitems

theorem Node.all_fails_of_hasNil (ns : List Node) :
    ∀ n ∈ ns, n.HasNil → Reader.form.Fails n.tokens nilFault := by
  match ns with
  | [] => exact List.forall_mem_nil _
  | n :: ns => exact List.forall_mem_cons.mpr ⟨n.fails_of_hasNil, Node.all_fails_of_hasNil ns⟩

end

theorem Node.ofTokens_of_fails {t : Token} {ts : List Token} {e : ParseFault}
    (ho : t.kind = .openParen) (h : Reader.form.Fails (t :: ts) e) :
    Node.ofTokens (t :: ts) = .error e := by
  have hr := h []
  rw [List.append_nil] at hr
  rw [Node.ofTokens_open ho]
  generalize Reader.form (t :: ts) = r at hr ⊢
  obtain ⟨o, rest⟩ := r
  obtain rfl : o = .error e := hr
  rfl

theorem Node.parse_encode_atom (h : ¬n.IsForm) :
    n.encode.parse = .error (.missingOpen n.encode) := by
  rw [Text.parse, n.tokens_encode]
  cases n with
  | nil => rfl
  | number => rfl
  | boolean => rfl
  | binary => exact absurd trivial h
  | conditional => exact absurd trivial h
  | sequence => exact absurd trivial h

theorem Node.parse_encode_hasNil (hf : n.IsForm) (h : n.HasNil) :
    n.encode.parse = .error nilFault := by
  obtain ⟨ts, hts⟩ := List.head?_eq_some_iff.mp hf.head?_tokens
  have hfails := n.fails_of_hasNil h
  rw [Text.parse, n.tokens_encode]
  rw [hts] at hfails ⊢
  exact Node.ofTokens_of_fails rfl hfails

theorem Node.parse_encode_asWritten (hf : n.IsForm) (h : ¬n.HasNil) :
    n.encode.parse = .ok n.asWritten := by
  rw [Text.parse, n.tokens_encode]
  exact Node.ofTokens_eq_ok_iff.mpr ⟨⟨_, hf.head?_tokens, rfl⟩, Node.derives_asWritten h⟩

/-- A tree that is not in parentheses is refused for that. One that lacks a subtree is refused for
the first mark of one, and so never taken for another tree. Any other tree is read back, with
sequences in place of operations that have no spelling. -/
theorem Node.parse_encode_malformed (n : Node) :
    (¬n.IsForm → n.encode.parse = .error (.missingOpen n.encode)) ∧
    (n.IsForm → n.HasNil → n.encode.parse = .error (.invalidToken (Text.ofString ":nil"))) ∧
    (n.IsForm → ¬n.HasNil → n.encode.parse = .ok n.asWritten) ∧
    (n.HasNil → ∀ m, n.encode.parse ≠ .ok m) := by
  refine ⟨Node.parse_encode_atom, Node.parse_encode_hasNil, Node.parse_encode_asWritten, ?_⟩
  intro h m hm
  by_cases hf : n.IsForm
  · rw [Node.parse_encode_hasNil hf h] at hm
    cases hm
  · rw [Node.parse_encode_atom hf] at hm
    cases hm

/-- Operations without a spelling come back as sequences at any depth, a mark is found also where a
keyword could stand, and a number is no expression. -/
theorem Node.parse_encode_malformed_nested :
    let n : Node := .binary (.unknown 7) (.number (-5))
      (.binary .add (.number 1) (.binary (.unknown 0) (.sequence []) (.boolean true)))
    let m : Node := .conditional n (.sequence [.nil, .number 1]) .nil
    n.encode = Text.ofString "( -5 (+ 1 ( () true)))" ∧
      n.encode.parse = .ok (.sequence [.number (-5),
        .binary .add (.number 1) (.sequence [.sequence [], .boolean true])]) ∧
      m.encode.parse = .error (.invalidToken (Text.ofString ":nil")) ∧
      (Node.number 3).encode.parse = .error (.missingOpen (Text.ofString "3")) := by
  intro n m
  have hn : ¬n.HasNil := by simp [n, Node.HasNil, Node.AnyHasNil]
  have hm : m.HasNil := .inr (.inr trivial)
  refine ⟨by decide, ?_, ?_, ?_⟩
  · exact (Node.parse_encode_malformed n).2.2.1 trivial hn
  · exact (Node.parse_encode_malformed m).2.1 trivial hm
  · exact (Node.parse_encode_malformed (.number 3)).1 id

end Nil

end TinyLisp

import TinyLisp.Proofs.Evaluation

/-!
A form in a program gives way to its value.

Wherever the tokens of a form stand among those of a larger one, the grammar has made them a subtree
of its own. So the tokens of another form can take their place, and if the new subtree comes to what
the old one came to, so does the whole tree.
-/

namespace TinyLisp

/-- Two trees that come to the same value or the same fault. -/
def Node.EvalEq (n m : Node) : Prop := n.eval = m.eval

section Congruence

variable {c c' l l' n n' r r' y y' : Node}

instance : Std.Refl Node.EvalEq := ⟨fun _ => rfl⟩

theorem Node.EvalEq.binary (op : Operator) (hl : l.EvalEq l') (hr : r.EvalEq r') :
    (Node.binary op l r).EvalEq (.binary op l' r') := by
  rw [Node.EvalEq, Node.eval, Node.eval, hl, hr]

theorem Node.EvalEq.conditional (hc : c.EvalEq c') (hy : y.EvalEq y') (hn : n.EvalEq n') :
    (Node.conditional c y n).EvalEq (.conditional c' y' n') := by
  rw [Node.EvalEq, Node.eval, Node.eval, hc, hy, hn]

theorem Node.EvalEq.sequence (ns ns' : List Node) : (Node.sequence ns).EvalEq (.sequence ns') := rfl

end Congruence

section Replace

variable {us ws : List Token} {m m' : Node}

theorem Derives.head (h : Derives us m) :
    ∃ t vs, us = t :: vs ∧ t.kind ≠ .closeParen ∧ ¬t.IsKeyword := by
  obtain ⟨d⟩ := h
  have hk := d.head_not_keyword
  obtain ⟨t, vs, rfl, hc⟩ := d.head
  exact ⟨t, vs, rfl, hc, hk t rfl⟩

/-- A form does not begin where a parenthesis closes. -/
theorem Derives.not_close {c : Token} {q rest : List Token} (h : Derives us m)
    (hc : c.kind = .closeParen) : c :: rest ≠ us ++ q := by
  intro he
  obtain ⟨t, vs, rfl, ht, -⟩ := h.head
  obtain ⟨rfl, -⟩ := List.cons.inj he
  exact ht hc

/-- A form that begins behind a keyword, or with it, begins behind it. -/
theorem Derives.behind_keyword {w : Token} {p q rest : List Token} (h : Derives us m)
    (hw : w.IsKeyword) (he : w :: rest = p ++ (us ++ q)) :
    ∃ p', p = w :: p' ∧ rest = p' ++ (us ++ q) := by
  cases p with
  | nil =>
    obtain ⟨t, vs, rfl, -, ht⟩ := h.head
    obtain ⟨rfl, -⟩ := List.cons.inj he
    exact absurd hw ht
  | cons a p =>
    obtain ⟨rfl, hrest⟩ := List.cons.inj he
    exact ⟨p, rfl, hrest⟩

mutual

/-- Where a form begins inside another one it also ends there, and the tokens of a third form with
the same value can stand in its place. -/
theorem Derivation.replace {p q rest ts : List Token} {n : Node} (d : Derivation ts n)
    (hu : Derives us m) (hw : Derives ws m') (he : m'.EvalEq m)
    (hts : ts ++ rest = p ++ (us ++ q)) (hp : p.length < ts.length) :
    ∃ q' n', q = q' ++ rest ∧ Derives (p ++ (ws ++ q')) n' ∧ n'.EvalEq n := by
  cases p with
  | nil =>
    obtain ⟨rfl, rfl, rfl⟩ := Derives.append_inj ⟨d⟩ hu hts
    exact ⟨[], m', rfl, by rwa [List.nil_append, List.append_nil], he⟩
  | cons a p =>
    -- The form begins behind the first token, which is then a parenthesis, and among the items.
    match d with
    | .boolean _ _ => simp at hp
    | .number _ _ => simp at hp
    | .empty ho hc =>
      simp only [List.cons_append, List.nil_append, List.cons.injEq] at hts
      simp only [List.length_cons, List.length_nil] at hp
      obtain rfl : p = [] := List.length_eq_zero_iff.mp (by omega)
      exact absurd hts.2 (hu.not_close hc)
    | @Derivation.binary o w c op ts l r ho hk hop hx ds hc =>
      simp only [List.cons_append, List.append_assoc, List.nil_append, List.cons.injEq] at hts
      obtain ⟨rfl, hbody⟩ := hts
      obtain ⟨p, rfl, hforms⟩ := hu.behind_keyword (Operator.isKeyword_of_symbol hk hop hx) hbody
      obtain ⟨q', ns, rfl, hcl, hns⟩ := ds.replace hc hu hw he hforms (by grind)
      match ns, hns with
      | [l', r'], .cons hl (.cons hr .nil) =>
        exact ⟨q', _, rfl, hcl.binary hk hop hx _ ho, .binary op hl hr⟩
    | @Derivation.conditional o w c ts x y z ho hk hx ds hc =>
      simp only [List.cons_append, List.append_assoc, List.nil_append, List.cons.injEq] at hts
      obtain ⟨rfl, hbody⟩ := hts
      obtain ⟨p, rfl, hforms⟩ := hu.behind_keyword ⟨hk, .inr (.inr hx)⟩ hbody
      obtain ⟨q', ns, rfl, hcl, hns⟩ := ds.replace hc hu hw he hforms (by grind)
      match ns, hns with
      | [x', y', z'], .cons hx' (.cons hy (.cons hz .nil)) =>
        exact ⟨q', _, rfl, hcl.conditional hk hx _ ho, .conditional hx' hy hz⟩
    | @Derivation.sequence o c ts n ns ho ds hk hc =>
      simp only [List.cons_append, List.append_assoc, List.nil_append, List.cons.injEq] at hts
      obtain ⟨rfl, hforms⟩ := hts
      obtain ⟨q', ns', rfl, hcl, hns⟩ := ds.replace hc hu hw he hforms (by grind)
      match ns', hns with
      | n' :: ns', .cons _ _ => exact ⟨q', _, rfl, hcl.sequence_self _ ho, .sequence _ _⟩

theorem Derivations.replace {c : Token} {p q rest ts : List Token} {ns : List Node}
    (ds : Derivations ts ns) (hc : c.kind = .closeParen) (hu : Derives us m) (hw : Derives ws m')
    (he : m'.EvalEq m) (hts : ts ++ c :: rest = p ++ (us ++ q)) (hp : p.length ≤ ts.length) :
    ∃ q' ns', q = q' ++ rest ∧ ClosedForms (p ++ (ws ++ q')) ns' ∧
      List.Forall₂ Node.EvalEq ns' ns := by
  match ds with
  | .nil =>
    obtain rfl := List.length_eq_zero_iff.mp (Nat.le_zero.mp hp)
    exact absurd hts (hu.not_close hc)
  | @Derivations.cons ts us' n ns d ds =>
    rw [List.append_assoc] at hts
    -- Either the form begins in the first item, or `p` holds that item whole.
    by_cases hin : p.length < ts.length
    · obtain ⟨q', n', rfl, hd, hn⟩ := d.replace hu hw he hts hin
      have hrest : ClosedForms (us' ++ [c]) ns := ⟨us', c, rfl, hc, ⟨ds⟩⟩
      refine ⟨q' ++ (us' ++ [c]), n' :: ns, by simp, ?_, .cons hn (List.forall₂_refl ns)⟩
      have hall := ClosedForms.cons hd hrest
      rwa [List.append_assoc, List.append_assoc] at hall
    · have hpre : ts <+: p :=
        List.prefix_of_prefix_length_le ⟨_, hts⟩ (List.prefix_append p _) (Nat.le_of_not_lt hin)
      obtain ⟨p', rfl⟩ := hpre
      rw [List.append_assoc] at hts
      obtain ⟨q', ns', rfl, hcl, hns⟩ := ds.replace hc hu hw he (List.append_cancel_left hts)
        (by simpa using hp)
      refine ⟨q', n :: ns', rfl, ?_, .cons rfl hns⟩
      rw [List.append_assoc]
      exact .cons ⟨d⟩ hcl

end

end Replace

section Value

variable {p q us : List Token} {n m : Node} {v : Value}

/-- What a value is written as is a form, and has that value. -/
theorem Value.IsProper.derives (hv : v.IsProper) :
    ∃ n : Node, Derives [⟨.word, v.render⟩] n ∧ n.eval = .ok v := by
  have ha : Token.IsAtom ⟨.word, v.render⟩ := Token.isAtom_of_word rfl
  cases v with
  | invalid => simp [Value.IsProper, Value.isNumber, Value.isBoolean] at hv
  | number a => exact ⟨.number a, ⟨.number ha ⟨_, rfl, spellsInt_decimal _⟩⟩, rfl⟩
  | boolean b => exact ⟨.boolean b, ⟨.boolean ha rfl⟩, rfl⟩

/-- The value of a form inside a program, written in the place of the form, leaves a program that
comes to the same value or the same fault. -/
theorem Node.value_in_place_of_form (hp : p ≠ []) (h : Node.ofTokens (p ++ us ++ q) = .ok n)
    (hu : Node.ofTokens us = .ok m) (hv : m.eval = .ok v) :
    (∃ n', Node.ofTokens (p ++ [⟨.word, v.render⟩] ++ q) = .ok n' ∧ n'.eval = n.eval) ∧
    ∀ s s' : Text, s.tokens = p ++ us ++ q → s'.tokens = p ++ [⟨.word, v.render⟩] ++ q →
      s'.eval = s.eval := by
  obtain ⟨⟨o, ho, hk⟩, ⟨d⟩⟩ := Node.ofTokens_eq_ok_iff.mp h
  have hm := (Node.ofTokens_eq_ok_iff.mp hu).2
  obtain ⟨l, hl, hlv⟩ := ((Node.wellFormed_of_ofTokens hu).isProper_of_eval hv).derives
  have hts : p ++ us ++ q ++ [] = p ++ (us ++ q) := by simp
  have hlt : p.length < (p ++ us ++ q).length := by
    have hpos := List.length_pos_iff.mpr hm.ne_nil
    simp only [List.length_append]
    omega
  obtain ⟨q', n', rfl, hn', he⟩ := d.replace hm hl (hlv.trans hv.symm) hts hlt
  have hread : Node.ofTokens (p ++ [⟨.word, v.render⟩] ++ (q' ++ [])) = .ok n' := by
    obtain ⟨a, p, rfl⟩ := List.exists_cons_of_ne_nil hp
    rw [List.append_nil, List.append_assoc]
    exact Node.ofTokens_eq_ok_iff.mpr ⟨⟨o, ho, hk⟩, hn'⟩
  refine ⟨⟨n', hread, he⟩, ?_⟩
  intro s s' hs hs'
  rw [Text.eval, Text.eval, Text.parse, Text.parse, hs, hs', h, hread]
  dsimp only
  rw [he]

/-- A difference that wraps around gives way to its value, and the fault around it shows that. -/
theorem Node.value_in_place_of_difference :
    let p : List Token := [.leftParen, .word "+".toList]
    let us : List Token := [.leftParen, .word "-".toList, .word "-2147483648".toList,
      .word "1".toList, .rightParen]
    let q : List Token := [.word "true".toList, .rightParen]
    let m : Node := .binary .subtract (.number (-2147483648)) (.number 1)
    let v : Value := .number 2147483647
    Node.ofTokens us = .ok m ∧ m.eval = .ok v ∧
      Node.ofTokens (p ++ us ++ q) = .ok (.binary .add m (.boolean true)) ∧
      ∃ n', Node.ofTokens (p ++ [⟨.word, v.render⟩] ++ q) = .ok n' ∧
        n'.eval = .error (.types (.operands .add v (.boolean true))) := by
  intro p us q m v
  have hleast : Derivation [.word "-2147483648".toList] (.number (-2147483648)) :=
    .number (Token.isAtom_of_word rfl) ⟨_, rfl, integer?_eq_some_iff.mp rfl⟩
  have hone : Derivation [.word "1".toList] (.number 1) :=
    .number (Token.isAtom_of_word rfl) ⟨_, rfl, integer?_eq_some_iff.mp rfl⟩
  have htrue : Derivation [.word "true".toList] (.boolean true) :=
    .boolean (Token.isAtom_of_word rfl) rfl
  have hform : Derivation us m := .binary rfl rfl rfl rfl (.cons hleast (.cons hone .nil)) rfl
  have hwhole : Derivation (p ++ us ++ q) (.binary .add m (.boolean true)) :=
    .binary rfl rfl rfl rfl (.cons hform (.cons htrue .nil)) rfl
  have hu := Node.ofTokens_eq_ok_iff.mpr ⟨⟨_, rfl, rfl⟩, ⟨hform⟩⟩
  have h := Node.ofTokens_eq_ok_iff.mpr ⟨⟨_, rfl, rfl⟩, ⟨hwhole⟩⟩
  have hv : m.eval = .ok v := rfl
  obtain ⟨⟨n', hn', he⟩, -⟩ := Node.value_in_place_of_form (by simp [p]) h hu hv
  exact ⟨hu, hv, h, n', hn', he⟩

end Value

end TinyLisp

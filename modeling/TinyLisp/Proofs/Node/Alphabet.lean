import TinyLisp.Proofs.Evaluation

/-!
The characters of expressions.

Reading looks at every token, also at those of forms that are never evaluated, and lets pass no
other words than keywords and literals. So a text with any other character in it, or with a byte
that belongs to no character, is no expression.
-/

namespace TinyLisp

/-- A parenthesis, a sign, a digit or a letter of `true`, `false` or `if`. -/
def inAlphabet (c : Char) : Bool :=
  c.isDigit || ("()+-" ++ "true" ++ "false" ++ "if").toList.contains c

/-- What each token of a form is. -/
inductive Token.IsLexical (t : Token) : Prop
  | paren (h : ¬t.IsAtom)
  | keyword (h : t.IsKeyword)
  | boolean {b : Bool} (h : t.text = Text.ofChars (spellBool b))
  | number {v : Int32} (h : t.Spells v)

section Tokens

variable {c : Char} {t : Token}

theorem Token.isLexical_open (h : t.kind = .openParen) : t.IsLexical := .paren fun ha => ha.1 h

theorem Token.isLexical_close (h : t.kind = .closeParen) : t.IsLexical := .paren fun ha => ha.2 h

mutual

theorem Derivation.isLexical {ts : List Token} {n : Node} (d : Derivation ts n) :
    ∀ t ∈ ts, t.IsLexical := by
  match d with
  | .boolean _ hx => exact List.forall_mem_singleton.mpr (.boolean hx)
  | .number _ hx => exact List.forall_mem_singleton.mpr (.number hx)
  | .empty ho hc =>
    exact List.forall_mem_cons.mpr
      ⟨Token.isLexical_open ho, List.forall_mem_singleton.mpr (Token.isLexical_close hc)⟩
  | .binary ho hw hop hx ds hc =>
    have hkeyword := Token.IsLexical.keyword (Operator.isKeyword_of_symbol hw hop hx)
    exact List.forall_mem_cons.mpr
      ⟨Token.isLexical_open ho, List.forall_mem_cons.mpr ⟨hkeyword, ds.isLexical_close hc⟩⟩
  | .conditional ho hw hx ds hc =>
    have hkeyword := Token.IsLexical.keyword ⟨hw, .inr (.inr hx)⟩
    exact List.forall_mem_cons.mpr
      ⟨Token.isLexical_open ho, List.forall_mem_cons.mpr ⟨hkeyword, ds.isLexical_close hc⟩⟩
  | .sequence ho ds _ hc =>
    exact List.forall_mem_cons.mpr ⟨Token.isLexical_open ho, ds.isLexical_close hc⟩

theorem Derivations.isLexical_close {ts : List Token} {ns : List Node} (ds : Derivations ts ns)
    {c : Token} (hc : c.kind = .closeParen) : ∀ t ∈ ts ++ [c], t.IsLexical := by
  match ds with
  | .nil => exact List.forall_mem_singleton.mpr (Token.isLexical_close hc)
  | .cons d ds =>
    rw [List.append_assoc]
    exact List.forall_mem_append.mpr ⟨d.isLexical, ds.isLexical_close hc⟩

end

theorem inAlphabet_of_mem_chars {cs : List Char} (hcs : cs.all inAlphabet)
    (ht : t.text = Text.ofChars cs) (hc : c ∈ t.text.chars) : inAlphabet c := by
  rw [ht, Text.chars_ofChars] at hc
  exact List.all_eq_true.mp hcs c hc

theorem Token.Spells.inAlphabet_of_mem {v : Int32} (h : t.Spells v) (hc : c ∈ t.text.chars) :
    inAlphabet c := by
  rcases h.chars.mem hc with hd | rfl | rfl
  · rw [inAlphabet, hd]
    rfl
  · rfl
  · rfl

theorem Token.IsLexical.inAlphabet_of_mem (h : t.IsLexical) (hs : t.IsScanned)
    (hc : c ∈ t.text.chars) : inAlphabet c := by
  cases h with
  | paren ha =>
    -- The kind alone says nothing about the text; that the token was scanned does.
    rcases hs with rfl | rfl | hw
    · exact inAlphabet_of_mem_chars (show ['('].all inAlphabet from rfl) rfl hc
    · exact inAlphabet_of_mem_chars (show [')'].all inAlphabet from rfl) rfl hc
    · exact absurd (Token.isAtom_of_word hw) ha
  | keyword hk =>
    obtain ⟨-, hx | hx | hx⟩ := hk
    · exact inAlphabet_of_mem_chars rfl hx hc
    · exact inAlphabet_of_mem_chars rfl hx hc
    · exact inAlphabet_of_mem_chars rfl hx hc
  | @boolean b hx =>
    have hall : (spellBool b).all inAlphabet := by cases b <;> rfl
    exact inAlphabet_of_mem_chars hall hx hc
  | number hx => exact hx.inAlphabet_of_mem hc

end Tokens

section Text

variable {s : Text} {n : Node} {c : Char} {cs : List Char}

/-- Every character other than white space has got into a token. -/
theorem exists_mem_tokensOf (hc : c ∈ cs) (hb : isBlank c = false) :
    ∃ t ∈ tokensOf cs, c ∈ t.text.chars := by
  induction cs using scan_induction with
  | nil => cases hc
  | blank d cs hd ih =>
    rw [tokensOf_blank hd]
    rcases List.mem_cons.mp hc with rfl | hc
    · rw [hd] at hb
      cases hb
    · exact ih hc
  | paren d k cs hd ih =>
    rw [tokensOf_paren hd]
    rcases List.mem_cons.mp hc with rfl | hc
    · exact ⟨_, List.mem_cons_self, by rw [Text.chars_ofChars]; exact List.mem_singleton_self c⟩
    · obtain ⟨t, ht, hct⟩ := ih hc
      exact ⟨t, List.mem_cons_of_mem _ ht, hct⟩
  | word w cs hne hw hcs ih =>
    rw [tokensOf_word_append hne hw hcs]
    rcases List.mem_append.mp hc with hc | hc
    · exact ⟨_, List.mem_cons_self, by rwa [Text.chars_ofChars]⟩
    · obtain ⟨t, ht, hct⟩ := ih hc
      exact ⟨t, List.mem_cons_of_mem _ ht, hct⟩

theorem Text.inAlphabet_of_parse (h : s.parse = .ok n) (hc : c ∈ s.chars) :
    isBlank c ∨ inAlphabet c := by
  by_cases hb : isBlank c
  · exact .inl hb
  · obtain ⟨t, ht, hct⟩ := exists_mem_tokensOf hc (Bool.eq_false_iff.mpr hb)
    obtain ⟨-, ⟨d⟩⟩ := Node.ofTokens_eq_ok_iff.mp h
    exact .inr ((d.isLexical t ht).inAlphabet_of_mem (Text.isScanned_of_mem_tokens ht) hct)

/-- Stray bytes show, and as no character that an expression may have. -/
theorem Text.isUtf8_of_parse (h : s.parse = .ok n) : s.isUtf8 := by
  have hshown : Char.ofNat 0xFFFD ∉ s.chars := by
    intro hc
    rcases Text.inAlphabet_of_parse h hc with hb | hs
    · exact absurd hb (by decide)
    · exact absurd hs (by decide)
  rw [← Text.ofChars_chars hshown]
  exact Text.isUtf8_ofChars s.chars

/-- Expressions are UTF-8 and have, besides white space, no other characters than these. Whatever
else there is in a text, and wherever it stands, makes evaluation refuse it as no expression. -/
theorem Text.parse_alphabet (s : Text) :
    (∀ n, s.parse = .ok n → s.isUtf8 ∧ ∀ c ∈ s.chars, isBlank c ∨ inAlphabet c) ∧
    ((s.isUtf8 = false ∨ ∃ c ∈ s.chars, ¬(isBlank c ∨ inAlphabet c)) →
      ∃ e, s.run = .error (.parse e)) := by
  constructor
  · intro n h
    exact ⟨Text.isUtf8_of_parse h, fun c => Text.inAlphabet_of_parse h⟩
  · intro hbad
    cases h : s.parse with
    | error e => exact ⟨e, Text.run_eq_error_iff.mpr ((s.eval_eq_iff _).mpr h)⟩
    | ok n =>
      rcases hbad with hutf8 | ⟨c, hc, hsign⟩
      · rw [Text.isUtf8_of_parse h] at hutf8
        cases hutf8
      · exact absurd (Text.inAlphabet_of_parse h hc) hsign

/-- A stray byte behind an expression and a foreign digit in a branch that is not chosen are both
refused; a blank of three bytes is not. -/
theorem Text.parse_alphabet_out_of_sight :
    let s : Text := Text.ofString "()" ++ [0xFF]
    let t := Text.ofString "(if true 1 \u0663)"
    let u := Text.ofString "(\u3000-07)"
    (∃ e, s.run = .error (.parse e)) ∧ (∃ e, t.run = .error (.parse e)) ∧
      u.parse = .ok (.sequence [.number (-7)]) ∧ ∀ c ∈ u.chars, isBlank c ∨ inAlphabet c := by
  intro s t u
  have hs : s.isUtf8 = false := by
    have hstray : Text.pieces [0xFF] = .stray 0xFF :: Text.pieces [] :=
      Text.pieces_cons_of_first? (by decide)
    have hpieces : s.pieces = .char '(' :: .char ')' :: Text.pieces [0xFF] :=
      (Text.pieces_utf8EncodeChar_append '(' _).trans
        (congrArg _ (Text.pieces_utf8EncodeChar_append ')' _))
    rw [Text.isUtf8, hpieces, hstray]
    rfl
  have ht : ∃ c ∈ t.chars, ¬(isBlank c ∨ inAlphabet c) := by
    have hchars : t.chars = "(if true 1 \u0663)".toList := Text.chars_ofChars _
    rw [hchars]
    exact ⟨'\u0663', by decide, by decide⟩
  have hseven : Derivation [.word "-07".toList] (.number (-7)) :=
    .number (Token.isAtom_of_word rfl) ⟨_, rfl, integer?_eq_some_iff.mp rfl⟩
  have hkeyword : ¬(Token.word "-07".toList).IsKeyword := hseven.head_not_keyword _ rfl
  have hu : u.parse = .ok (.sequence [.number (-7)]) := by
    have hscan : tokensOf "(\u3000-07)".toList = [.leftParen, .word "-07".toList, .rightParen] := by
      decide
    apply Text.parse_ofChars hscan rfl
    exact .sequence rfl (.cons hseven .nil) (fun _ ht => Option.some.inj ht ▸ hkeyword) rfl
  obtain ⟨-, hbad⟩ := Text.parse_alphabet s
  obtain ⟨-, hbad'⟩ := Text.parse_alphabet t
  obtain ⟨hgood, -⟩ := Text.parse_alphabet u
  exact ⟨hbad (.inl hs), hbad' (.inr ht), hu, (hgood _ hu).2⟩

end Text

end TinyLisp

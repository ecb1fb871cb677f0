import TinyLisp.Proofs.Token.Scan

/-!
Scanning in one pass.

Characters are looked at once, from left to right, with no more to keep in mind than the word that
is being read. This yields the tokens of a text, as does cutting it into parentheses, words that
cannot be made longer and white space. So nothing but white space is lost, and the kind of a token
can be told from its text.
-/

namespace TinyLisp

/-- The token that a run of characters leaves when it ends. -/
def endRun (run : List Char) : List Token := if run = [] then [] else [.word run]

/-- Scans the characters behind a run that belongs to one word. -/
def scanFrom (run : List Char) : List Char → List Token
  | [] => endRun run
  | c :: cs =>
    if c = '(' then endRun run ++ .leftParen :: scanFrom [] cs
    else if c = ')' then endRun run ++ .rightParen :: scanFrom [] cs
    else if isBlank c then endRun run ++ scanFrom [] cs
    else scanFrom (run ++ [c]) cs

/-- The characters cut into tokens and white space, with no two words side by side. -/
inductive Cut : List Char → List Token → Prop
  | nil : Cut [] []
  | blank {c : Char} {cs : List Char} {ts : List Token} (hc : isBlank c) (h : Cut cs ts) :
      Cut (c :: cs) ts
  | openParen {cs : List Char} {ts : List Token} (h : Cut cs ts) :
      Cut ('(' :: cs) (.leftParen :: ts)
  | closeParen {cs : List Char} {ts : List Token} (h : Cut cs ts) :
      Cut (')' :: cs) (.rightParen :: ts)
  | word {w cs : List Char} {ts : List Token} (hne : w ≠ []) (hw : ∀ c ∈ w, IsPlain c)
      (hcs : EndsWord cs) (h : Cut cs ts) : Cut (w ++ cs) (.word w :: ts)

section Scan

variable {c : Char} {k : TokenKind} {cs run : List Char} {ts : List Token}

theorem parenKind?_eq_some_iff :
    parenKind? c = some k ↔ c = '(' ∧ k = .openParen ∨ c = ')' ∧ k = .closeParen := by
  rw [parenKind?]
  split
  · simp_all [eq_comm]
  · split <;> simp_all [eq_comm]

theorem isPlain_iff : IsPlain c ↔ c ≠ '(' ∧ c ≠ ')' ∧ isBlank c = false := by
  rw [IsPlain, parenKind?]
  split
  · simp_all
  · split <;> simp_all

theorem tokensOf_run (h : ∀ c ∈ run, IsPlain c) : tokensOf run = endRun run := by
  rw [endRun]
  split
  · subst run
    rfl
  · rename_i hne
    exact tokensOf_word hne h

theorem scanFrom_paren (hc : parenKind? c = some k) :
    scanFrom run (c :: cs) = endRun run ++ ⟨k, Text.ofChars [c]⟩ :: scanFrom [] cs := by
  rcases parenKind?_eq_some_iff.mp hc with ⟨rfl, rfl⟩ | ⟨rfl, rfl⟩
  · rfl
  · rfl

theorem scanFrom_blank (hc : isBlank c) :
    scanFrom run (c :: cs) = endRun run ++ scanFrom [] cs := by
  have ho : c ≠ '(' := by
    rintro rfl
    cases hc
  have hcl : c ≠ ')' := by
    rintro rfl
    cases hc
  rw [scanFrom, if_neg ho, if_neg hcl, if_pos hc]

theorem scanFrom_plain (hc : IsPlain c) :
    scanFrom run (c :: cs) = scanFrom (run ++ [c]) cs := by
  obtain ⟨ho, hcl, hb⟩ := isPlain_iff.mp hc
  rw [scanFrom, if_neg ho, if_neg hcl, if_neg (by simp [hb])]

theorem tokensOf_append_eq_scanFrom (h : ∀ c ∈ run, IsPlain c) (cs : List Char) :
    tokensOf (run ++ cs) = scanFrom run cs := by
  induction cs generalizing run with
  | nil => rw [List.append_nil, scanFrom, tokensOf_run h]
  | cons c cs ih =>
    have hrest := ih (List.forall_mem_nil IsPlain)
    rw [List.nil_append] at hrest
    by_cases hc : IsPlain c
    · have hrun : ∀ d ∈ run ++ [c], IsPlain d := by
        intro d hd
        rcases List.mem_append.mp hd with hd | hd
        · exact h d hd
        · rwa [List.mem_singleton.mp hd]
      rw [scanFrom_plain hc, ← ih hrun, List.append_assoc, List.singleton_append]
    · rcases not_isPlain_iff.mp hc with hb | ⟨k, hk⟩
      · rw [tokensOf_append_blank hb, tokensOf_run h, hrest, scanFrom_blank hb]
      · rw [tokensOf_append_paren hk, tokensOf_run h, hrest, scanFrom_paren hk]

theorem cut_tokensOf (cs : List Char) : Cut cs (tokensOf cs) := by
  induction cs using scan_induction with
  | nil => exact .nil
  | blank c cs hc ih =>
    rw [tokensOf_blank hc]
    exact .blank hc ih
  | paren c k cs hc ih =>
    rw [tokensOf_paren hc]
    rcases parenKind?_eq_some_iff.mp hc with ⟨rfl, rfl⟩ | ⟨rfl, rfl⟩
    · exact .openParen ih
    · exact .closeParen ih
  | word w cs hne hw hcs ih =>
    rw [tokensOf_word_append hne hw hcs]
    exact .word hne hw hcs ih

theorem Cut.eq_tokensOf (h : Cut cs ts) : ts = tokensOf cs := by
  induction h with
  | nil => rfl
  | blank hc h ih => rw [tokensOf_blank hc, ih]
  | openParen h ih => rw [tokensOf_paren rfl, ih]; rfl
  | closeParen h ih => rw [tokensOf_paren rfl, ih]; rfl
  | word hne hw hcs h ih => rw [tokensOf_word_append hne hw hcs, ih]; rfl

theorem Cut.flatMap_text (h : Cut cs ts) :
    ts.flatMap Token.text = Text.ofChars (cs.filter fun c => !isBlank c) := by
  induction h with
  | nil => rfl
  | blank hc h ih => rw [ih, List.filter_cons_of_neg (by simp [hc])]
  | openParen h ih =>
    rw [List.flatMap_cons, ih, List.filter_cons_of_pos (by decide)]
    rfl
  | closeParen h ih =>
    rw [List.flatMap_cons, ih, List.filter_cons_of_pos (by decide)]
    rfl
  | @word w cs ts hne hw hcs h ih =>
    have hkept : w.filter (fun c => !isBlank c) = w := by
      apply List.filter_eq_self.mpr
      intro c hc
      rw [(hw c hc).1]
      rfl
    rw [List.flatMap_cons, ih, List.filter_append, hkept, Text.ofChars_append]
    rfl

/-- The kind of the token can be told from its text, which is not empty. -/
def Token.IsTold (t : Token) : Prop :=
  t.text ≠ [] ∧ (t.kind = .openParen ↔ t.text = Text.ofString "(") ∧
    (t.kind = .closeParen ↔ t.text = Text.ofString ")") ∧ ∀ code, t.kind ≠ .invalid code

theorem Token.isTold_word {w : List Char} (hne : w ≠ []) (hw : ∀ c ∈ w, IsPlain c) :
    (Token.word w).IsTold := by
  have hparen {c : Char} (hc : ¬IsPlain c) : Text.ofChars w ≠ Text.ofChars [c] := by
    intro he
    apply hc
    apply hw
    rw [Text.ofChars_injective he]
    exact List.mem_singleton_self c
  refine ⟨?_, ⟨nofun, ?_⟩, ⟨nofun, ?_⟩, nofun⟩
  · intro he
    exact hne (Text.ofChars_injective (he.trans Text.ofChars_nil.symm))
  · intro he
    exact absurd he (hparen (by decide))
  · intro he
    exact absurd he (hparen (by decide))

theorem Cut.isTold {t : Token} (h : Cut cs ts) (ht : t ∈ ts) : t.IsTold := by
  induction h with
  | nil => cases ht
  | blank hc h ih => exact ih ht
  | openParen h ih =>
    rcases List.mem_cons.mp ht with rfl | ht
    · exact ⟨by decide, by decide, by decide, nofun⟩
    · exact ih ht
  | closeParen h ih =>
    rcases List.mem_cons.mp ht with rfl | ht
    · exact ⟨by decide, by decide, by decide, nofun⟩
    · exact ih ht
  | word hne hw hcs h ih =>
    rcases List.mem_cons.mp ht with rfl | ht
    · exact Token.isTold_word hne hw
    · exact ih ht

/-- The tokens of a text are those that one pass over its characters yields, and those it is cut
into. Their texts are its characters without the white space, and tell their kinds. -/
theorem Text.tokens_in_one_pass (s : Text) :
    s.tokens = scanFrom [] s.chars ∧ (∀ ts, Cut s.chars ts ↔ ts = s.tokens) ∧
    s.tokens.flatMap Token.text = Text.ofChars (s.chars.filter fun c => !isBlank c) ∧
    ∀ t ∈ s.tokens, t.IsTold := by
  have hscan := tokensOf_append_eq_scanFrom (List.forall_mem_nil IsPlain) s.chars
  have hcut : Cut s.chars s.tokens := cut_tokensOf s.chars
  refine ⟨hscan, fun ts => ⟨Cut.eq_tokensOf, ?_⟩, hcut.flatMap_text, ?_⟩
  · rintro rfl
    exact hcut
  · intro t ht
    exact hcut.isTold ht

/-- A byte that begins a character of three bytes and stands alone is a word before a parenthesis,
and a blank of two bytes is one. -/
theorem Text.tokens_in_one_pass_cut_short :
    let s : Text := 0xE2 :: Text.ofString "()\u00A0x"
    s.tokens = [.word ['\uFFFD'], .leftParen, .rightParen, .word ['x']] ∧
      s.tokens.flatMap Token.text = Text.ofString "\uFFFD()x" ∧ (Token.word ['x']).IsTold := by
  intro s
  have hchars : s.chars = ['\uFFFD', '(', ')', '\u00A0', 'x'] := by
    have hstray : s.pieces = .stray 0xE2 :: Text.pieces (Text.ofString "()\u00A0x") :=
      Text.pieces_cons_of_first? (by decide)
    rw [Text.chars, hstray, Text.ofString, Text.pieces_ofChars]
    rfl
  obtain ⟨hscan, -, htext, htold⟩ := Text.tokens_in_one_pass s
  have htokens : s.tokens = [.word ['\uFFFD'], .leftParen, .rightParen, .word ['x']] := by
    rw [hscan, hchars]
    rfl
  refine ⟨htokens, ?_, htold _ ?_⟩
  · rw [htext, hchars]
    rfl
  · rw [htokens]
    simp

end Scan

end TinyLisp

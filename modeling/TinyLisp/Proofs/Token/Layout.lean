import Mathlib.Data.List.Chain
import TinyLisp.Evaluation
import TinyLisp.Proofs.Text.Blank
import TinyLisp.Proofs.Token.Scan

/-!
The layout of a text: the white space around its tokens.

Neither trimming a text nor writing its tokens out again with other white space changes what tokens
it has, so all that is made of the tokens stays the same.
-/

namespace TinyLisp

section Trim

theorem tokensOf_dropWhile_isBlank (cs : List Char) :
    tokensOf (cs.dropWhile isBlank) = tokensOf cs := by
  induction cs with
  | nil => rfl
  | cons c cs ih =>
    by_cases hc : isBlank c
    · rw [List.dropWhile_cons_of_pos hc, tokensOf_blank hc, ih]
    · rw [List.dropWhile_cons_of_neg hc]

theorem tokensOf_rdropWhile_isBlank (cs : List Char) :
    tokensOf (cs.rdropWhile isBlank) = tokensOf cs := by
  induction cs using List.reverseRecOn with
  | nil => rw [List.rdropWhile_nil]
  | append_singleton cs c ih =>
    by_cases hc : isBlank c
    · rw [List.rdropWhile_concat_pos _ _ _ hc, ih, tokensOf_append_blank hc cs []]
      exact (List.append_nil _).symm
    · rw [List.rdropWhile_concat_neg _ _ _ hc]

theorem Text.tokens_trim (t : Text) : t.trim.tokens = t.tokens := by
  rw [Text.tokens_eq, Text.tokens_eq, Text.chars_trim, tokensOf_rdropWhile_isBlank,
    tokensOf_dropWhile_isBlank]

theorem Text.run_trim (t : Text) : t.trim.run = t.run := by
  rw [Text.run, Text.run, Text.eval, Text.eval, Text.parse, Text.parse, t.tokens_trim]

end Trim

/-- White space and nothing else. -/
def AllBlank (cs : List Char) : Prop := ∀ c ∈ cs, isBlank c

instance (cs : List Char) : Decidable (AllBlank cs) :=
  decidable_of_iff (cs.all isBlank) List.all_eq_true

/-- A parenthesis, which need not be kept apart from its neighbours. -/
def Token.IsParen (t : Token) : Prop := t.kind = .openParen ∨ t.kind = .closeParen

instance (t : Token) : Decidable t.IsParen := inferInstanceAs (Decidable (_ ∨ _))

/-- A token with the characters that stand between it and the token before it. -/
structure Placed where
  gap : List Char
  token : Token

/-- Two neighbours touch only where one of them is a parenthesis. -/
def Placed.Apart (p q : Placed) : Prop := q.gap ≠ [] ∨ p.token.IsParen ∨ q.token.IsParen

instance (p q : Placed) : Decidable (p.Apart q) := inferInstanceAs (Decidable (_ ∨ _))

/-- A way to write tokens down: the white space in front of each of them, and that at the end. -/
structure Layout (ts : List Token) where
  placed : List Placed
  final : List Char
  tokens_eq : placed.map Placed.token = ts
  gaps : ∀ p ∈ placed, AllBlank p.gap
  final_blank : AllBlank final
  apart : placed.IsChain Placed.Apart

/-- Tokens one after the other, each behind its gap, and some more characters. -/
def Placed.write (ps : List Placed) (final : List Char) : Text :=
  ps.flatMap (fun p => Text.ofChars p.gap ++ p.token.text) ++ Text.ofChars final

def Layout.text {ts : List Token} (l : Layout ts) : Text := Placed.write l.placed l.final

section Layout

variable {ws cs : List Char} {t : Token}

theorem AllBlank.tokensOf_append (h : AllBlank ws) (cs : List Char) :
    tokensOf (ws ++ cs) = tokensOf cs := by
  induction ws with
  | nil => rfl
  | cons c ws ih =>
    obtain ⟨hc, hws⟩ := List.forall_mem_cons.mp h
    rw [List.cons_append, tokensOf_blank hc, ih hws]

theorem AllBlank.endsWord (h : AllBlank ws) (hne : ws ≠ []) (cs : List Char) :
    EndsWord (ws ++ cs) := by
  cases ws with
  | nil => exact absurd rfl hne
  | cons b ws =>
    rintro c ⟨⟩
    exact not_isPlain_iff.mpr (.inl (h b List.mem_cons_self))

namespace Token

variable {w : List Char}

theorem Spelled.text_eq (h : t.Spelled w) : t.text = Text.ofChars w := by
  cases h with
  | paren => rfl
  | word => rfl

theorem Spelled.endsWord (h : t.Spelled w) (ht : t.IsParen) (cs : List Char) :
    EndsWord (w ++ cs) := by
  cases h with
  | @paren c k hk =>
    rintro d ⟨⟩
    exact not_isPlain_iff.mpr (.inr ⟨k, hk⟩)
  | word => rcases ht with ht | ht <;> cases ht

theorem Spelled.tokensOf_append (h : t.Spelled w) (hcs : t.IsParen ∨ EndsWord cs) :
    tokensOf (w ++ cs) = t :: tokensOf cs := by
  cases h with
  | paren hk => exact tokensOf_paren hk cs
  | word hne hw =>
    apply tokensOf_word_append hne hw
    rcases hcs with (ht | ht) | hcs
    · cases ht
    · cases ht
    · exact hcs

end Token

/-- Tokens written out are scanned again, and after a word there is nothing to go on with. -/
theorem Placed.exists_chars_write {ps : List Placed} {final : List Char}
    (hspelled : ∀ p ∈ ps, ∃ w, p.token.Spelled w) (hgaps : ∀ p ∈ ps, AllBlank p.gap)
    (hfinal : AllBlank final) (hapart : ps.IsChain Placed.Apart) :
    ∃ cs, Placed.write ps final = Text.ofChars cs ∧ tokensOf cs = ps.map Placed.token ∧
      ((∀ p ∈ ps.head?, p.gap ≠ [] ∨ p.token.IsParen) → EndsWord cs) := by
  induction ps with
  | nil =>
    refine ⟨final, rfl, ?_, ?_⟩
    · have h := hfinal.tokensOf_append []
      rwa [List.append_nil] at h
    · intro _ c hc
      exact not_isPlain_iff.mpr (.inl (hfinal c (List.mem_of_mem_head? hc)))
  | cons p ps ih =>
    obtain ⟨⟨w, hw⟩, hspelled⟩ := List.forall_mem_cons.mp hspelled
    obtain ⟨hgap, hgaps⟩ := List.forall_mem_cons.mp hgaps
    obtain ⟨hnext, hapart⟩ := List.isChain_cons.mp hapart
    obtain ⟨cs, hcs, htokens, hends⟩ := ih hspelled hgaps hapart
    have hstop : p.token.IsParen ∨ EndsWord cs := by
      by_cases hp : p.token.IsParen
      · exact .inl hp
      · right
        apply hends
        intro q hq
        rcases hnext q hq with h | h | h
        · exact .inl h
        · exact absurd h hp
        · exact .inr h
    refine ⟨p.gap ++ (w ++ cs), ?_, ?_, ?_⟩
    · rw [Placed.write] at hcs ⊢
      rw [List.flatMap_cons, List.append_assoc, hcs, hw.text_eq]
      simp only [Text.ofChars_append, List.append_assoc]
    · rw [hgap.tokensOf_append, hw.tokensOf_append hstop, htokens, List.map_cons]
    · intro hfront
      by_cases hne : p.gap = []
      · have hparen := (hfront p rfl).resolve_left fun h => h hne
        rw [hne]
        exact hw.endsWord hparen cs
      · exact hgap.endsWord hne _

theorem Layout.tokens_text {s : Text} (l : Layout s.tokens) : l.text.tokens = s.tokens := by
  have hspelled : ∀ p ∈ l.placed, ∃ w, p.token.Spelled w := by
    intro p hp
    have hmem : p.token ∈ tokensOf s.chars := by
      rw [← Text.tokens_eq, ← l.tokens_eq]
      exact List.mem_map_of_mem hp
    exact exists_spelled_of_mem_tokensOf hmem
  obtain ⟨cs, hcs, htokens, -⟩ :=
    Placed.exists_chars_write hspelled l.gaps l.final_blank l.apart
  rw [Layout.text, hcs, Text.tokens_ofChars, htokens, l.tokens_eq]

/-- A text written out again in any layout of its tokens has the same tokens, and so the same tree,
value or fault. -/
theorem Text.layout_irrelevant (s : Text) (l : Layout s.tokens) :
    l.text.tokens = s.tokens ∧ l.text.parse = s.parse ∧ l.text.eval = s.eval ∧
      l.text.run = s.run := by
  have h := l.tokens_text
  have hparse : l.text.parse = s.parse := by rw [Text.parse, Text.parse, h]
  have heval : l.text.eval = s.eval := by rw [Text.eval, Text.eval, hparse]
  refine ⟨h, hparse, heval, ?_⟩
  rw [Text.run, Text.run, heval]

/-- A stray byte comes out as the replacement character, set off by other blanks or by none. -/
theorem Text.layout_irrelevant_stray_byte :
    let s : Text := [0x28, 0xFF, 0x29]
    let t := Text.ofString "\u3000(\uFFFD\n )\t"
    t.tokens = s.tokens ∧ t.parse = s.parse ∧ t.eval = s.eval ∧ t.run = s.run := by
  intro s t
  have hpieces : s.pieces = [.char '(', .stray 0xFF, .char ')'] := by
    have hclose : Text.pieces [0x29] = [.char ')'] := Text.pieces_ofChars [')']
    have hstray : Text.pieces [0xFF, 0x29] = .stray 0xFF :: Text.pieces [0x29] :=
      Text.pieces_cons_of_first? (by decide)
    have hopen : s.pieces = .char '(' :: Text.pieces [0xFF, 0x29] :=
      Text.pieces_utf8EncodeChar_append '(' _
    rw [hopen, hstray, hclose]
  have htokens : s.tokens = [.leftParen, .word ['\uFFFD'], .rightParen] := by
    rw [Text.tokens_eq, Text.chars, hpieces]
    decide
  exact Text.layout_irrelevant s {
    placed := [⟨['\u3000'], .leftParen⟩, ⟨[], .word ['\uFFFD']⟩, ⟨['\n', ' '], .rightParen⟩]
    final := ['\t']
    tokens_eq := htokens.symm
    gaps := by decide
    final_blank := by decide
    apart := by decide }

end Layout

end TinyLisp

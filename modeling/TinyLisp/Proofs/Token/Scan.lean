import Mathlib.Data.List.TakeWhile
import TinyLisp.Proofs.Text.Utf8
import TinyLisp.Token.Scan

/-!
How scanning goes with concatenation: a blank ends a token, a parenthesis is one on its own, and
what is free of both is one word.

Characters can be taken off the front blank by blank, parenthesis by parenthesis and word by word
(`scan_induction`), and each of these says what tokens come of them.
-/

namespace TinyLisp

theorem splitBlanks_ne_nil (cs : List Char) : splitBlanks cs ≠ [] := by
  fun_cases splitBlanks cs <;> simp

theorem splitBlanks_append {b : Char} (hb : isBlank b) (cs ds : List Char) :
    splitBlanks (cs ++ b :: ds) = splitBlanks cs ++ splitBlanks ds := by
  induction cs with
  | nil => simp [splitBlanks, hb]
  | cons c cs ih =>
    rw [List.cons_append, splitBlanks, splitBlanks, ih]
    split
    · rfl
    · obtain ⟨field, fields, hf⟩ := List.exists_cons_of_ne_nil (splitBlanks_ne_nil cs)
      rw [hf]
      rfl

theorem wordsOf_append {b : Char} (hb : isBlank b) (cs ds : List Char) :
    wordsOf (cs ++ b :: ds) = wordsOf cs ++ wordsOf ds := by
  rw [wordsOf, splitBlanks_append hb, List.filter_append]
  rfl

theorem splitBlanks_of_plain {cs : List Char} (h : ∀ c ∈ cs, isBlank c = false) :
    splitBlanks cs = [cs] := by
  induction cs with
  | nil => rfl
  | cons c cs ih =>
    have hc := h c List.mem_cons_self
    rw [splitBlanks, ih (fun d hd => h d (List.mem_cons_of_mem _ hd)), hc]
    rfl

theorem wordsOf_of_plain {cs : List Char} (hne : cs ≠ []) (h : ∀ c ∈ cs, isBlank c = false) :
    wordsOf cs = [cs] := by
  rw [wordsOf, splitBlanks_of_plain h]
  simp [hne]

theorem isolateParens_append (cs ds : List Char) :
    isolateParens (cs ++ ds) = isolateParens cs ++ isolateParens ds :=
  List.flatMap_append

theorem isolateParens_cons {c : Char} (hc : parenKind? c = none) (cs : List Char) :
    isolateParens (c :: cs) = c :: isolateParens cs := by
  rw [isolateParens, List.flatMap_cons, hc]
  rfl

theorem isolateParens_paren {c : Char} {k : TokenKind} (hc : parenKind? c = some k)
    (cs : List Char) : isolateParens (c :: cs) = ' ' :: c :: ' ' :: isolateParens cs := by
  rw [isolateParens, List.flatMap_cons, hc]
  rfl

theorem parenKind?_of_isBlank {c : Char} (h : isBlank c) : parenKind? c = none := by
  rw [parenKind?]
  split
  · subst c
    cases h
  · split
    · subst c
      cases h
    · rfl

theorem isBlank_of_parenKind? {c : Char} {k : TokenKind} (h : parenKind? c = some k) :
    isBlank c = false := by
  cases hb : isBlank c with
  | false => rfl
  | true => rw [parenKind?_of_isBlank hb] at h; cases h

/-- Neither white space nor a parenthesis. -/
def IsPlain (c : Char) : Prop := isBlank c = false ∧ parenKind? c = none

instance (c : Char) : Decidable (IsPlain c) := inferInstanceAs (Decidable (_ ∧ _))

theorem isolateParens_of_plain {cs : List Char} (h : ∀ c ∈ cs, IsPlain c) :
    isolateParens cs = cs := by
  induction cs with
  | nil => rfl
  | cons c cs ih =>
    have hc := h c List.mem_cons_self
    rw [isolateParens_cons hc.2, ih (fun d hd => h d (List.mem_cons_of_mem _ hd))]

/-- The tokens that characters make up. -/
def tokensOf (cs : List Char) : List Token := (wordsOf (isolateParens cs)).map Token.ofWord

theorem Text.tokens_eq (t : Text) : t.tokens = tokensOf t.chars := rfl

theorem Text.tokens_ofChars (cs : List Char) : (Text.ofChars cs).tokens = tokensOf cs := by
  rw [Text.tokens_eq, Text.chars_ofChars]

theorem Text.tokens_nil : Text.tokens [] = [] := Text.tokens_ofChars []

theorem tokensOf_append_blank {b : Char} (hb : isBlank b) (cs ds : List Char) :
    tokensOf (cs ++ b :: ds) = tokensOf cs ++ tokensOf ds := by
  rw [tokensOf, isolateParens_append, isolateParens_cons (parenKind?_of_isBlank hb),
    wordsOf_append hb, List.map_append]
  rfl

theorem tokensOf_append_paren {c : Char} {k : TokenKind} (hc : parenKind? c = some k)
    (cs ds : List Char) :
    tokensOf (cs ++ c :: ds) = tokensOf cs ++ ⟨k, Text.ofChars [c]⟩ :: tokensOf ds := by
  have hone : wordsOf [c] = [[c]] := by
    apply wordsOf_of_plain (by simp)
    intro d hd
    rw [List.mem_singleton.mp hd]
    exact isBlank_of_parenKind? hc
  have hword : Token.ofWord [c] = ⟨k, Text.ofChars [c]⟩ := by
    rw [Token.ofWord, hc]
    rfl
  have hblank : isBlank ' ' := by decide
  rw [tokensOf, isolateParens_append, isolateParens_paren hc, wordsOf_append hblank,
    ← List.singleton_append, wordsOf_append hblank, hone, List.map_append, List.map_append,
    List.map_singleton, hword]
  rfl

theorem tokensOf_paren {c : Char} {k : TokenKind} (hc : parenKind? c = some k) (cs : List Char) :
    tokensOf (c :: cs) = ⟨k, Text.ofChars [c]⟩ :: tokensOf cs :=
  tokensOf_append_paren hc [] cs

theorem Text.tokens_append_blank {b : Char} (hb : isBlank b) (s t : Text) :
    Text.tokens (s ++ (String.utf8EncodeChar b ++ t)) = s.tokens ++ t.tokens := by
  rw [Text.tokens_eq, Text.chars_append_char_append, tokensOf_append_blank hb]
  rfl

theorem Text.tokens_append_paren {c : Char} {k : TokenKind} (hc : parenKind? c = some k)
    (s t : Text) :
    Text.tokens (s ++ (String.utf8EncodeChar c ++ t)) =
      s.tokens ++ ⟨k, Text.ofChars [c]⟩ :: t.tokens := by
  rw [Text.tokens_eq, Text.chars_append_char_append, tokensOf_append_paren hc]
  rfl

theorem tokensOf_word {cs : List Char} (hne : cs ≠ []) (h : ∀ c ∈ cs, IsPlain c) :
    tokensOf cs = [⟨.word, Text.ofChars cs⟩] := by
  rw [tokensOf, isolateParens_of_plain h, wordsOf_of_plain hne (fun c hc => (h c hc).1),
    List.map_singleton]
  match cs, h with
  | [], _ => rfl
  | [c], h => rw [Token.ofWord, (h c List.mem_cons_self).2]; rfl
  | _ :: _ :: _, _ => rfl

section Front

variable {c : Char} {w cs : List Char}

theorem not_isPlain_iff : ¬IsPlain c ↔ isBlank c ∨ ∃ k, parenKind? c = some k := by
  rw [IsPlain, not_and_or, Bool.not_eq_false, ← ne_eq, Option.ne_none_iff_exists']

/-- No word goes on into the characters. -/
def EndsWord (cs : List Char) : Prop := ∀ c ∈ cs.head?, ¬IsPlain c

theorem tokensOf_blank (hc : isBlank c) (cs : List Char) : tokensOf (c :: cs) = tokensOf cs :=
  tokensOf_append_blank hc [] cs

theorem tokensOf_word_append (hne : w ≠ []) (hw : ∀ c ∈ w, IsPlain c) (hcs : EndsWord cs) :
    tokensOf (w ++ cs) = ⟨.word, Text.ofChars w⟩ :: tokensOf cs := by
  cases cs with
  | nil =>
    rw [List.append_nil, tokensOf_word hne hw]
    rfl
  | cons c cs =>
    rcases not_isPlain_iff.mp (hcs c rfl) with hb | ⟨k, hk⟩
    · rw [tokensOf_append_blank hb, tokensOf_blank hb, tokensOf_word hne hw, List.singleton_append]
    · rw [tokensOf_append_paren hk, tokensOf_paren hk, tokensOf_word hne hw, List.singleton_append]

theorem endsWord_dropWhile (cs : List Char) : EndsWord (cs.dropWhile (IsPlain ·)) := by
  intro c hc
  have h := List.head?_dropWhile_not (fun c => decide (IsPlain c)) cs
  rw [Option.mem_def.mp hc] at h
  simpa using h

/-- What holds of characters if it holds of none and a blank, a parenthesis or a whole word in front
makes no difference to it. -/
theorem scan_induction {motive : List Char → Prop} (nil : motive [])
    (blank : ∀ c cs, isBlank c → motive cs → motive (c :: cs))
    (paren : ∀ c k cs, parenKind? c = some k → motive cs → motive (c :: cs))
    (word : ∀ w cs, w ≠ [] → (∀ c ∈ w, IsPlain c) → EndsWord cs → motive cs → motive (w ++ cs))
    (cs : List Char) : motive cs := by
  match cs with
  | [] => exact nil
  | c :: cs =>
    by_cases hc : IsPlain c
    · have hsplit := List.takeWhile_append_dropWhile (p := (IsPlain ·)) (l := cs)
      have hrest := scan_induction nil blank paren word (cs.dropWhile (IsPlain ·))
      rw [← hsplit, ← List.cons_append]
      apply word _ _ (List.cons_ne_nil _ _) _ (endsWord_dropWhile cs) hrest
      intro d hd
      rcases List.mem_cons.mp hd with rfl | hd
      · exact hc
      · simpa using List.mem_takeWhile_imp hd
    · have hrest := scan_induction nil blank paren word cs
      rcases not_isPlain_iff.mp hc with hb | ⟨k, hk⟩
      · exact blank c cs hb hrest
      · exact paren c k cs hk hrest
termination_by cs.length
decreasing_by
  · have hle := List.length_dropWhile_le (IsPlain ·) cs
    simp only [List.length_cons]
    omega
  · simp

/-- The token that scanning yields for the characters, which are all its own. -/
inductive Token.Spelled : Token → List Char → Prop
  | paren {c : Char} {k : TokenKind} (h : parenKind? c = some k) : Spelled ⟨k, Text.ofChars [c]⟩ [c]
  | word {w : List Char} (hne : w ≠ []) (h : ∀ c ∈ w, IsPlain c) : Spelled ⟨.word, Text.ofChars w⟩ w

theorem exists_spelled_of_mem_tokensOf {t : Token} (h : t ∈ tokensOf cs) : ∃ w, t.Spelled w := by
  induction cs using scan_induction with
  | nil => cases h
  | blank c cs hc ih =>
    rw [tokensOf_blank hc] at h
    exact ih h
  | paren c k cs hc ih =>
    rw [tokensOf_paren hc] at h
    rcases List.mem_cons.mp h with rfl | h
    · exact ⟨_, .paren hc⟩
    · exact ih h
  | word w cs hne hw hcs ih =>
    rw [tokensOf_word_append hne hw hcs] at h
    rcases List.mem_cons.mp h with rfl | h
    · exact ⟨_, .word hne hw⟩
    · exact ih h

end Front

def Token.leftParen : Token := ⟨.openParen, Text.ofString "("⟩

def Token.rightParen : Token := ⟨.closeParen, Text.ofString ")"⟩

def Token.word (cs : List Char) : Token := ⟨.word, Text.ofChars cs⟩

/-- A token whose kind and text go together, as in all that scanning yields. -/
def Token.IsScanned (t : Token) : Prop := t = .leftParen ∨ t = .rightParen ∨ t.kind = .word

theorem Token.isScanned_ofWord (cs : List Char) : (Token.ofWord cs).IsScanned := by
  match cs with
  | [] | _ :: _ :: _ => exact .inr (.inr rfl)
  | [c] =>
    rw [Token.ofWord, parenKind?]
    split
    · subst c
      exact .inl rfl
    · split
      · subst c
        exact .inr (.inl rfl)
      · exact .inr (.inr rfl)

theorem Text.isScanned_of_mem_tokens {t : Text} {k : Token} (h : k ∈ t.tokens) : k.IsScanned := by
  obtain ⟨cs, _, rfl⟩ := List.mem_map.mp h
  exact Token.isScanned_ofWord cs

end TinyLisp

import TinyLisp.Command.Invocation
import TinyLisp.Proofs.Text.Quoted
import TinyLisp.Proofs.Token.Scan

/-!
The listing of tokens.

A token is described on one printable line, by the name of its kind and its text in quotes. The name
ends at the first blank and what follows can be read back, so the lines tell the tokens that
scanning yields, and their number.
-/

namespace TinyLisp

theorem TokenKind.isLine_name (k : TokenKind) : (Text.ofString k.name).IsLine := by
  apply Text.isLine_ofString
  cases k <;> rw [name] <;> rfl

theorem TokenKind.blank_notMem_name (k : TokenKind) : 32 ∉ Text.ofString k.name := by
  cases k <;> rw [name] <;> decide

/-- Only the kinds that scanning does not yield share a name. -/
theorem TokenKind.eq_of_name {j k : TokenKind} (hj : ∀ code, j ≠ .invalid code)
    (hk : ∀ code, k ≠ .invalid code) (h : j.name = k.name) : j = k := by
  cases j <;> cases k <;> simp_all [name]

namespace Token

variable {t u : Token} {ts us : List Token}

theorem isLine_describe (t : Token) : t.describe.IsLine := by
  apply Text.IsLine.append _ (Text.isLine_ofString rfl)
  apply Text.IsLine.append _ (Text.isLine_quote t.text)
  apply Text.IsLine.append _ (Text.isLine_ofString rfl)
  exact (Text.isLine_ofString rfl).append t.kind.isLine_name

theorem describe_inj (h : t.describe = u.describe) :
    t.kind.name = u.kind.name ∧ t.text = u.text := by
  have hblank : Text.ofString " " = [32] := rfl
  rw [describe, describe] at h
  simp only [List.append_assoc, hblank, List.singleton_append] at h
  obtain ⟨hname, hrest⟩ := append_cons_inj t.kind.blank_notMem_name u.kind.blank_notMem_name
    (List.append_cancel_left h)
  have hquote := List.append_cancel_right hrest
  exact ⟨String.toList_inj.mp (Text.ofChars_injective hname), Text.quote_injective hquote⟩

theorem IsScanned.kind_ne_invalid (h : t.IsScanned) (code : UInt8) : t.kind ≠ .invalid code := by
  rcases h with rfl | rfl | h
  · exact nofun
  · exact nofun
  · rw [h]
    exact nofun

theorem IsScanned.eq_of_describe (ht : t.IsScanned) (hu : u.IsScanned)
    (h : t.describe = u.describe) : t = u := by
  obtain ⟨hname, htext⟩ := describe_inj h
  have hkind := TokenKind.eq_of_name ht.kind_ne_invalid hu.kind_ne_invalid hname
  cases t
  cases u
  cases hkind
  cases htext
  rfl

theorem eq_of_map_describe (hts : ∀ t ∈ ts, t.IsScanned) (hus : ∀ u ∈ us, u.IsScanned)
    (h : ts.map describe = us.map describe) : ts = us := by
  induction ts generalizing us with
  | nil => exact (List.map_eq_nil_iff.mp h.symm).symm
  | cons t ts ih =>
    cases us with
    | nil => cases h
    | cons u us =>
      obtain ⟨ht, hts⟩ := List.forall_mem_cons.mp hts
      obtain ⟨hu, hus⟩ := List.forall_mem_cons.mp hus
      obtain ⟨hline, hlines⟩ := List.cons.inj h
      rw [ht.eq_of_describe hu hline, ih hts hus hlines]

end Token

namespace Command

variable {args args' : List Text} {r r' : Flag.Reading} {s s' : Text}

theorem invoke_tokens (i : Invocation) (v : Bool)
    (h : Flag.ask Command.tokens.flags args = .action r [s]) :
    Command.tokens.invoke i v args = .print (tokenLines s) := by
  rw [invoke, h]
  rfl

/-- Behind two dashes every text is one argument. -/
theorem ask_dashes (s : Text) :
    Flag.ask Command.tokens.flags ["--", s] = .action ⟨[], .ok [s]⟩ [s] := by
  have hread : Flag.read (Command.tokens.flags ++ [Flag.help]) [] ["--", s] = ⟨[], .ok [s]⟩ := by
    rw [Flag.read]
    rfl
  rw [Flag.ask, hread]
  rfl

theorem tokenLines_eq (s : Text) :
    tokenLines s = (s.tokens.map Token.describe).flatMap (· ++ [10]) := by
  rw [tokenLines, List.flatMap_map, List.flatMap_def]
  rfl

theorem split_tokenLines (s : Text) :
    Text.split 10 (tokenLines s) = s.tokens.map Token.describe ++ [[]] := by
  rw [tokenLines_eq]
  apply Text.split_lines
  intro line hline
  obtain ⟨t, -, rfl⟩ := List.mem_map.mp hline
  exact t.isLine_describe.lineFeed_notMem

theorem tokens_eq_of_tokenLines (h : tokenLines s = tokenLines s') : s.tokens = s'.tokens := by
  have hsplit := congrArg (Text.split 10) h
  rw [split_tokenLines, split_tokenLines] at hsplit
  exact Token.eq_of_map_describe (fun _ ht => Text.isScanned_of_mem_tokens ht)
    (fun _ hu => Text.isScanned_of_mem_tokens hu) (List.append_cancel_right hsplit)

/-- The command prints one line for each token, and the lines that it prints are those of no other
tokens. It can be called so for every text. -/
theorem tokens_listed_unambiguously (i i' : Invocation) (v v' : Bool)
    (h : Flag.ask Command.tokens.flags args = .action r [s])
    (h' : Flag.ask Command.tokens.flags args' = .action r' [s']) :
    let o := Command.tokens.invoke i v args
    let o' := Command.tokens.invoke i' v' args'
    let lines := s.tokens.map Token.describe
    (o.printed = lines.flatMap (· ++ [10]) ∧ Text.split 10 o.printed = lines ++ [[]] ∧
      o.log = [] ∧ o.fault = none) ∧
    (∀ line ∈ lines, line.IsLine ∧ 10 ∉ line) ∧
    (o.printed = o'.printed ↔ s.tokens = s'.tokens) ∧
    ∀ e, Flag.ask Command.tokens.flags ["--", e] = .action ⟨[], .ok [e]⟩ [e] := by
  intro o o' lines
  have ho : o = .print (tokenLines s) := invoke_tokens i v h
  have ho' : o' = .print (tokenLines s') := invoke_tokens i' v' h'
  rw [ho, ho']
  refine ⟨⟨tokenLines_eq s, split_tokenLines s, rfl, rfl⟩, ?_, ⟨tokens_eq_of_tokenLines, ?_⟩,
    ask_dashes⟩
  · intro line hline
    obtain ⟨t, -, rfl⟩ := List.mem_map.mp hline
    exact ⟨t.isLine_describe, t.isLine_describe.lineFeed_notMem⟩
  · intro htokens
    show tokenLines s = tokenLines s'
    rw [tokenLines, tokenLines, htokens]

/-- A stray byte is listed as the character that is scanned in its place, and blanks are not. -/
theorem tokens_listed_stray_byte :
    let i : Invocation := ⟨[], ⟨[], none⟩, none, fun _ => .error .missing⟩
    let s : Text := 0xFF :: Text.ofString "\"\u00A0)"
    let s' : Text := Text.ofString "\uFFFD\"\n)"
    let o := Command.tokens.invoke i false ["--", s]
    Flag.ask Command.tokens.flags ["--", s] = .action ⟨[], .ok [s]⟩ [s] ∧
      Flag.ask Command.tokens.flags ["--", s'] = .action ⟨[], .ok [s']⟩ [s'] ∧
      o.printed = Text.ofString "(:word \"\uFFFD\\\"\")\n(:close_expression \")\")\n" ∧
      o.printed = (Command.tokens.invoke i true ["--", s']).printed := by
  intro i s s' o
  have hchars : s.chars = ['\uFFFD', '"', '\u00A0', ')'] := by
    rw [Text.chars_cons_of_first? (by decide)]
    exact congrArg _ (Text.chars_ofChars "\"\u00A0)".toList)
  have hs : s.tokens = [.word ['\uFFFD', '"'], .rightParen] := by
    rw [Text.tokens_eq, hchars]
    rfl
  have hs' : s'.tokens = [.word ['\uFFFD', '"'], .rightParen] :=
    Text.tokens_ofChars "\uFFFD\"\n)".toList
  obtain ⟨⟨hprinted, -⟩, -, hsame, -⟩ :=
    tokens_listed_unambiguously i i false true (ask_dashes s) (ask_dashes s')
  refine ⟨ask_dashes s, ask_dashes s', hprinted.trans ?_, hsame.mpr (hs.trans hs'.symm)⟩
  have hword : (Token.word ['\uFFFD', '"']).text.quote = Text.ofString "\"\uFFFD\\\"\"" := by
    rw [Token.word, Text.quote, Text.quoteChars, Text.pieces_ofChars]
    decide +kernel
  have hparen : Token.rightParen.text.quote = Text.ofString "\")\"" := by
    rw [Token.rightParen, Text.ofString, Text.quote, Text.quoteChars, Text.pieces_ofChars]
    decide
  rw [hs, List.map_cons, List.map_singleton, Token.describe, Token.describe, hword, hparen]
  decide

end Command

end TinyLisp

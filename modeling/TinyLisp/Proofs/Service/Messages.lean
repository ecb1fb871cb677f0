import TinyLisp.Proofs.Text.Quoted
import TinyLisp.Proofs.Token.Scan
import TinyLisp.Service.Basic

/-!
What failures and log lines say.

All text from outside is quoted on its way into a message, so a message is one printable line
whatever bytes the expression holds, and a log line takes one line of output. The message of a
parse fault tells the fault and the token to blame: no summary has a colon in it, so the first one
after the front of the message stands before the quoted token.
-/

namespace TinyLisp

section Parsing

variable {f g : ParseFault} {t : Text}

namespace ParseFault

theorem isLine_summary (f : ParseFault) : (Text.ofString f.summary).IsLine := by
  apply Text.isLine_ofString
  cases f <;> rw [summary] <;> rfl

theorem reason_of_none (h : f.token? = none) : f.reason = Text.ofString f.summary := by
  rw [reason, h]

def colon : UInt8 := 58

theorem reason_of_token (h : f.token? = some t) :
    f.reason = Text.ofString f.summary ++ colon :: 32 :: t.quote := by
  rw [reason, h]
  exact List.append_assoc _ _ _

theorem isLine_reason (f : ParseFault) : f.reason.IsLine := by
  rw [reason]
  cases f.token? with
  | none => exact f.isLine_summary
  | some t =>
    apply Text.IsLine.append _ (Text.isLine_quote t)
    exact f.isLine_summary.append (Text.isLine_ofString rfl)

theorem isLine_message (f : ParseFault) : f.message.IsLine :=
  (Text.isLine_ofString rfl).append f.isLine_reason

theorem colon_notMem_summary (f : ParseFault) : colon ∉ Text.ofString f.summary := by
  cases f <;> rw [summary] <;> decide

theorem eq_of_summary (hs : Text.ofString f.summary = Text.ofString g.summary)
    (ht : f.token? = g.token?) : f = g := by
  have hsummary : f.summary = g.summary := String.toList_inj.mp (Text.ofChars_injective hs)
  cases f <;> cases g <;> simp_all [summary, token?]

theorem reason_injective (h : f.reason = g.reason) : f = g := by
  cases hf : f.token? with
  | none =>
    cases hg : g.token? with
    | none =>
      rw [reason_of_none hf, reason_of_none hg] at h
      exact eq_of_summary h (hf.trans hg.symm)
    | some u =>
      rw [reason_of_none hf, reason_of_token hg] at h
      apply absurd _ f.colon_notMem_summary
      rw [h]
      exact List.mem_append_cons_self
  | some t =>
    cases hg : g.token? with
    | none =>
      rw [reason_of_token hf, reason_of_none hg] at h
      apply absurd _ g.colon_notMem_summary
      rw [← h]
      exact List.mem_append_cons_self
    | some u =>
      rw [reason_of_token hf, reason_of_token hg] at h
      obtain ⟨hs, hquote⟩ := append_cons_inj f.colon_notMem_summary g.colon_notMem_summary h
      have htoken : t = u := Text.quote_injective (List.cons.inj hquote).2
      exact eq_of_summary hs (by rw [hf, hg, htoken])

theorem message_injective (h : f.message = g.message) : f = g :=
  reason_injective (List.append_cancel_left h)

end ParseFault

end Parsing

section Evaluating

theorem Value.isLine_render (v : Value) : v.render.IsLine := by
  apply Text.isLine_ofChars
  cases v with
  | invalid => exact allPrintable_of_all rfl
  | number n => exact allPrintable_decimal _
  | boolean b => exact allPrintable_spellBool b

theorem Value.isLine_describe (v : Value) : v.describe.IsLine := by
  apply Text.isLine_ofChars
  cases v with
  | invalid => exact allPrintable_of_all rfl
  | number n =>
    exact ((allPrintable_of_all rfl).append (allPrintable_decimal _)).append (allPrintable_of_all rfl)
  | boolean b =>
    exact ((allPrintable_of_all rfl).append (allPrintable_spellBool b)).append
      (allPrintable_of_all rfl)

theorem Operator.isLine_name (op : Operator) : (Text.ofString op.name).IsLine := by
  apply Text.isLine_ofString
  cases op <;> rfl

theorem TypeFault.isLine_message (f : TypeFault) : f.message.IsLine := by
  cases f with
  | operands op l r =>
    apply Text.IsLine.append _ r.isLine_describe
    apply Text.IsLine.append _ (Text.isLine_ofString rfl)
    apply Text.IsLine.append _ l.isLine_describe
    apply Text.IsLine.append _ (Text.isLine_ofString rfl)
    exact (Text.isLine_ofString rfl).append op.isLine_name
  | condition v => exact (Text.isLine_ofString rfl).append v.isLine_describe

theorem EvalFault.isLine_message (f : EvalFault) : f.message.IsLine := by
  cases f with
  | types f => exact f.isLine_message
  | nilNode => exact Text.isLine_ofString rfl
  | unknownOperator code =>
    exact (Text.isLine_ofString rfl).append (Text.isLine_ofChars (allPrintable_decimal _))

theorem Fault.isLine_message (f : Fault) : f.message.IsLine := by
  cases f with
  | parse f => exact f.isLine_message
  | eval f => exact f.isLine_message

end Evaluating

section Logging

variable {transport s : Text} {ctx : Option ContextEnd} {l : LogLine}

theorem ResultLabel.isLine_name (r : ResultLabel) : (Text.ofString r.name).IsLine := by
  apply Text.isLine_ofString
  cases r <;> rfl

theorem isLine_render_of_run {out : Text} (h : s.run = .ok out) : out.IsLine := by
  rw [Text.run] at h
  cases hv : s.eval with
  | error f =>
    rw [hv] at h
    cases h
  | ok v =>
    rw [hv] at h
    cases h
    exact v.isLine_render

theorem isLine_startLine (ht : transport.IsLine) (s : Text) :
    (startLine transport s).message.IsLine :=
  (ht.append (Text.isLine_ofString rfl)).append (Text.isLine_quote s)

theorem isLine_of_mem_log (ht : transport.IsLine) (h : l ∈ (evaluate transport ctx s).log) :
    l.message.IsLine := by
  cases ctx with
  | some reason => cases h
  | none =>
    rw [evaluate] at h
    cases hrun : s.run with
    | ok out =>
      rw [hrun] at h
      simp only [List.mem_cons, List.not_mem_nil, or_false] at h
      rcases h with rfl | rfl
      · exact isLine_startLine ht s
      · apply Text.IsLine.append _ (isLine_render_of_run hrun)
        apply Text.IsLine.append _ (Text.isLine_ofString rfl)
        apply Text.IsLine.append _ (Text.isLine_quote s)
        exact ht.append (Text.isLine_ofString rfl)
    | error f =>
      rw [hrun] at h
      simp only [List.mem_cons, List.not_mem_nil, or_false] at h
      rcases h with rfl | rfl
      · exact isLine_startLine ht s
      · apply Text.IsLine.append _ f.isLine_message
        apply Text.IsLine.append _ (Text.isLine_ofString rfl)
        apply Text.IsLine.append _ (Text.isLine_quote s)
        apply Text.IsLine.append _ (Text.isLine_ofString rfl)
        apply Text.IsLine.append _ (Failure.fault f).result.isLine_name
        exact ht.append (Text.isLine_ofString rfl)

theorem LogLine.entries_of_isLine (h : l.message.IsLine) :
    l.entries = [Text.ofString l.level.letter ++ Text.ofString " " ++ l.message] := by
  have hsplit : l.message.split lineFeed = [l.message] :=
    Text.split_of_notMem h.lineFeed_notMem
  rw [entries, hsplit, List.map_singleton]

/-- The transports on which an expression comes in. -/
def transports : List Text :=
  [Text.ofString Protocol.http.name, Text.ofString Protocol.grpc.name, Text.ofString "cli"]

theorem isLine_of_mem_transports (h : transport ∈ transports) : transport.IsLine := by
  simp only [transports, List.mem_cons, List.not_mem_nil, or_false] at h
  rcases h with rfl | rfl | rfl
  · exact Text.isLine_ofString rfl
  · exact Text.isLine_ofString rfl
  · exact Text.isLine_ofString rfl

end Logging

/-- Whatever bytes an expression holds, its failure has one printable line to say, and each message
logged about it is one printable line. Two parse faults with the same message are the same fault
about the same token. -/
theorem messages_are_lines_and_tell_faults :
    (∀ (s : Text) (f : Fault), s.run = .error f →
      f.message.IsLine ∧ LogLine.lineFeed ∉ f.message) ∧
    (∀ s : Text, ∀ transport ∈ transports, ∀ ctx, ∀ l ∈ (evaluate transport ctx s).log,
      l.message.IsLine ∧
        l.entries = [Text.ofString l.level.letter ++ Text.ofString " " ++ l.message]) ∧
    (∀ (ts us : List Token) (f g : ParseFault), Node.ofTokens ts = .error f →
      Node.ofTokens us = .error g → f.message = g.message → f = g) := by
  refine ⟨?_, ?_, ?_⟩
  · intro s f hrun
    exact ⟨f.isLine_message, f.isLine_message.lineFeed_notMem⟩
  · intro s transport ht ctx l hl
    have hline := isLine_of_mem_log (isLine_of_mem_transports ht) hl
    exact ⟨hline, LogLine.entries_of_isLine hline⟩
  · intro ts us f g hf hg hmessage
    exact ParseFault.message_injective hmessage

/-- The message about a word of a stray byte and an escape character is one line, and another one
than that about the word which is scanned in its place. -/
theorem messages_tell_stray_byte_from_replacement :
    let s : Text := 0xFF :: Text.ofString "\x1B"
    let shown := Text.ofString "\uFFFD\x1B"
    s.run = .error (.parse (.missingOpen shown)) ∧
      (ParseFault.missingOpen shown).message.IsLine ∧
      (∀ l ∈ (evaluate (Text.ofString "cli") none s).log, l.message.IsLine) ∧
      Node.ofTokens [⟨.word, s⟩] = .error (.missingOpen s) ∧
      (ParseFault.missingOpen s).message ≠ (ParseFault.missingOpen shown).message := by
  intro s shown
  have htokens : s.tokens = [⟨.word, shown⟩] := by
    have hstray : s.pieces = .stray 0xFF :: Text.pieces (Text.ofString "\x1B") :=
      Text.pieces_cons_of_first? (by decide)
    rw [Text.tokens_eq, Text.chars, hstray, Text.ofString, Text.pieces_ofChars]
    decide
  have hrun : s.run = .error (.parse (.missingOpen shown)) := by
    rw [Text.run, Text.eval, Text.parse, htokens]
    rfl
  obtain ⟨hfault, hlog, htell⟩ := messages_are_lines_and_tell_faults
  refine ⟨hrun, (hfault s _ hrun).1, ?_, rfl, ?_⟩
  · intro l hl
    exact (hlog s _ (by decide) none l hl).1
  · intro hmessage
    have heq := htell [⟨.word, s⟩] [⟨.word, shown⟩] _ _ rfl rfl hmessage
    exact absurd (ParseFault.missingOpen.inj heq) (by decide)

end TinyLisp

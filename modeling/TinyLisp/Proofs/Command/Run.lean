import TinyLisp.Command.Invocation
import TinyLisp.Proofs.Evaluation

/-!
Running expressions in a row.

Each argument stands for an expression of its own: a dash for what is on standard input, which the
first dash uses up, and any other argument for itself. What is printed and what goes wrong depends
on what these expressions come to and on nothing else. The first of them that fails ends the run, so
the lines printed are those of the longest front without a failure.
-/

namespace TinyLisp

/-- The source ends, and holds the given text up to there. -/
structure Source.Holds (s : Source) (w : Text) : Prop where
  whole : s.breaksWith = none
  bytes : s.chunks.flatten = w

theorem Source.Holds.run {s : Source} {w : Text} (h : s.Holds w) :
    s.run.1 = w.run.mapError .fault ∧ s.run.2.Holds [] := by
  rw [Source.run, Source.readAll, h.whole, h.bytes]
  exact ⟨rfl, rfl, rfl⟩

namespace Command

/-- The argument that stands for standard input. -/
abbrev dash : Text := Text.ofString "-"

/-- The expressions that arguments stand for when the given text is on standard input. -/
def expressions (w : Text) (args : List Text) : List Text :=
  args.mapIdx fun i e => if e = dash then if dash ∈ args.take i then [] else w else e

/-- What the expressions come to. -/
def results (w : Text) (args : List Text) : List (Except Fault Text) :=
  (expressions w args).map Text.run

/-- The values before the first fault. -/
def goodFront : List (Except Fault Text) → List Text
  | .ok out :: rs => out :: goodFront rs
  | _ => []

def firstFault? : List (Except Fault Text) → Option Fault
  | .ok _ :: rs => firstFault? rs
  | .error f :: _ => some f
  | [] => none

/-- What is logged for an argument. -/
def logged (e : Text) : List LogLine :=
  if e = dash then [] else (evaluate (Text.ofString "cli") none e).log

/-- The expression that an argument stands for while `w` is left on standard input. -/
def expression (w e : Text) : Text := if e = dash then w else e

/-- What is left on standard input behind an argument. -/
def leftover (w e : Text) : Text := if e = dash then [] else w

section Run

variable {e w : Text} {es more : List Text} {input : Source}

theorem expressions_cons (w e : Text) (es : List Text) :
    expressions w (e :: es) = expression w e :: expressions (leftover w e) es := by
  rw [expressions, List.mapIdx_cons, expression, leftover]
  split
  · rename_i h
    simp [h, expressions]
  · rename_i h
    simp [Ne.symm h, expressions]

theorem results_cons (w e : Text) (es : List Text) :
    results w (e :: es) = (expression w e).run :: results (leftover w e) es := by
  rw [results, expressions_cons, List.map_cons]
  rfl

theorem runOne_eq (hw : input.Holds w) (e : Text) :
    ∃ rest : Source, rest.Holds (leftover w e) ∧
      runOne none input e = (⟨(expression w e).run.mapError .fault, logged e⟩, rest) := by
  rw [runOne, logged, expression, leftover]
  split
  · obtain ⟨houtcome, hrest⟩ := hw.run
    exact ⟨_, hrest, by rw [← houtcome]⟩
  · exact ⟨input, hw, by rw [← outcome_evaluate (Text.ofString "cli") e]⟩

/-- One argument and the run that follows. -/
theorem runAll_cons (hw : input.Holds w) (e : Text) (es : List Text) :
    ∃ rest : Source, rest.Holds (leftover w e) ∧
      runAll none input (e :: es) = match (expression w e).run with
        | .error f => { log := logged e, fault := some (.expression f.message) }
        | .ok out =>
          let more := runAll none rest es
          { more with
            printed := out ++ Text.ofString "\n" ++ more.printed
            log := logged e ++ more.log } := by
  obtain ⟨rest, hrest, hone⟩ := runOne_eq hw e
  refine ⟨rest, hrest, ?_⟩
  rw [runAll, hone]
  cases (expression w e).run <;> rfl

theorem printed_runAll (hw : input.Holds w) (es : List Text) :
    (runAll none input es).printed =
      (goodFront (results w es)).flatMap (· ++ Text.ofString "\n") := by
  induction es generalizing input w with
  | nil => rfl
  | cons e es ih =>
    obtain ⟨rest, hrest, hcons⟩ := runAll_cons hw e es
    rw [hcons, results_cons]
    cases (expression w e).run with
    | error f => rfl
    | ok out =>
      dsimp only
      rw [ih hrest, goodFront, List.flatMap_cons]

theorem fault_runAll (hw : input.Holds w) (es : List Text) :
    (runAll none input es).fault =
      (firstFault? (results w es)).map fun f => .expression f.message := by
  induction es generalizing input w with
  | nil => rfl
  | cons e es ih =>
    obtain ⟨rest, hrest, hcons⟩ := runAll_cons hw e es
    rw [hcons, results_cons]
    cases (expression w e).run with
    | error f => rfl
    | ok out => exact ih hrest

theorem log_runAll (hw : input.Holds w) (es : List Text) :
    (runAll none input es).log =
      (es.take ((goodFront (results w es)).length + 1)).flatMap logged := by
  induction es generalizing input w with
  | nil => rfl
  | cons e es ih =>
    obtain ⟨rest, hrest, hcons⟩ := runAll_cons hw e es
    rw [hcons, results_cons]
    cases (expression w e).run with
    | error f => simp [goodFront]
    | ok out =>
      dsimp only
      rw [ih hrest, goodFront, List.length_cons, List.take_succ_cons, List.flatMap_cons]

/-- Nothing comes after a fault. -/
theorem runAll_append (hw : input.Holds w) (h : (runAll none input es).fault ≠ none)
    (more : List Text) : runAll none input (es ++ more) = runAll none input es := by
  induction es generalizing input w with
  | nil => exact absurd rfl h
  | cons e es ih =>
    obtain ⟨rest, hrest, hone⟩ := runOne_eq hw e
    rw [runAll, hone] at h
    rw [List.cons_append, runAll, runAll, hone]
    cases hx : (expression w e).run with
    | error f => rfl
    | ok out =>
      rw [hx] at h
      dsimp only [Except.mapError]
      rw [ih hrest h]

end Run

section Front

variable {v w : Text} {rs : List (Except Fault Text)} {args front back : List Text}

theorem goodFront_spec (rs : List (Except Fault Text)) :
    (rs = (goodFront rs).map .ok ∧ firstFault? rs = none) ∨
      ∃ f rest, rs = (goodFront rs).map .ok ++ .error f :: rest ∧ firstFault? rs = some f := by
  induction rs with
  | nil => exact .inl ⟨rfl, rfl⟩
  | cons r rs ih =>
    cases r with
    | error f => exact .inr ⟨f, rs, rfl, rfl⟩
    | ok out =>
      rw [goodFront, firstFault?, List.map_cons]
      rcases ih with ⟨hrs, hnone⟩ | ⟨f, rest, hrs, hsome⟩
      · exact .inl ⟨congrArg _ hrs, hnone⟩
      · exact .inr ⟨f, rest, congrArg _ hrs, hsome⟩

theorem goodFront_append (outs : List Text) (f : Fault) (rest : List (Except Fault Text)) :
    goodFront (outs.map .ok ++ .error f :: rest) = outs := by
  induction outs with
  | nil => rfl
  | cons out outs ih => exact congrArg (out :: ·) ih

/-- Unless all are good, the first fault comes right after the values before it. -/
theorem firstFault?_take (h : (goodFront rs).length < rs.length) :
    firstFault? (rs.take ((goodFront rs).length + 1)) ≠ none := by
  induction rs with
  | nil => cases h
  | cons r rs ih =>
    cases r with
    | error f => simp [goodFront, firstFault?]
    | ok out =>
      rw [goodFront, List.length_cons, List.take_succ_cons, firstFault?]
      exact ih (Nat.lt_of_succ_lt_succ h)

theorem length_results (w : Text) (args : List Text) : (results w args).length = args.length := by
  rw [results, List.length_map, expressions, List.length_mapIdx]

theorem results_take (w : Text) (args : List Text) (k : Nat) :
    results w (args.take k) = (results w args).take k := by
  induction args generalizing w k with
  | nil => simp [results, expressions]
  | cons e args ih =>
    cases k with
    | zero => rfl
    | succ k => rw [List.take_succ_cons, results_cons, results_cons, List.take_succ_cons, ih]

theorem run_nil : Text.run [] = .error (.parse .unexpectedEnd) := by
  rw [Text.run_eq_error_iff, Text.eval_eq_iff]
  change Text.parse [] = _
  rw [Text.parse, Text.tokens_nil]
  rfl

/-- With nothing on standard input no dash comes to a value. -/
theorem dash_notMem_front (args : List Text) :
    dash ∉ args.take (goodFront (results [] args)).length := by
  induction args with
  | nil => exact List.not_mem_nil
  | cons e args ih =>
    rw [results_cons, expression, leftover]
    split
    · rw [run_nil]
      exact List.not_mem_nil
    · rename_i h
      cases e.run with
      | error f => exact List.not_mem_nil
      | ok out =>
        rw [goodFront, List.length_cons, List.take_succ_cons]
        exact List.not_mem_cons_of_ne_of_not_mem (Ne.symm h) ih

theorem count_dash_front (w : Text) (args : List Text) :
    (args.take (goodFront (results w args)).length).count dash ≤ 1 := by
  induction args with
  | nil => exact Nat.zero_le _
  | cons e args ih =>
    rw [results_cons]
    cases (expression w e).run with
    | error f => exact Nat.zero_le _
    | ok out =>
      rw [goodFront, List.length_cons, List.take_succ_cons, leftover]
      split
      · rename_i h
        rw [h, List.count_cons_self, List.count_eq_zero_of_not_mem (dash_notMem_front args)]
      · rename_i h
        rw [List.count_cons_of_ne h]
        exact ih

theorem expressions_append (h : dash ∉ front) (w : Text) (back : List Text) :
    expressions w (front ++ back) = front ++ expressions w back := by
  induction front with
  | nil => rfl
  | cons e front ih =>
    have he := (List.ne_of_not_mem_cons h).symm
    rw [List.cons_append, expressions_cons, expression, leftover, if_neg he, if_neg he,
      ih (List.not_mem_of_not_mem_cons h), List.cons_append]

/-- A text on standard input is as good as one among the arguments. -/
theorem expressions_of_dash (hfront : dash ∉ front) (hw : w ≠ dash) (hv : v = [] ∨ dash ∉ back) :
    expressions v (front ++ w :: back) = expressions w (front ++ dash :: back) := by
  have hback : expressions v back = expressions [] back := by
    rcases hv with rfl | hback
    · rfl
    · have h := expressions_append hback v []
      have h' := expressions_append hback [] []
      rw [List.append_nil] at h h'
      exact h.trans h'.symm
  rw [expressions_append hfront, expressions_append hfront, expressions_cons, expressions_cons,
    expression, leftover, expression, leftover, if_neg hw, if_neg hw, if_pos rfl, if_pos rfl, hback]

end Front

section Action

variable {w : Text} {args : List Text} {i : Invocation}

/-- What comes after the argument that fails makes no difference. -/
theorem runAll_take_append {input : Source} (hw : input.Holds w)
    (h : (goodFront (results w args)).length < args.length) (more : List Text) :
    runAll none input (args.take ((goodFront (results w args)).length + 1) ++ more) =
      runAll none input args := by
  have hfault :
      (runAll none input (args.take ((goodFront (results w args)).length + 1))).fault ≠ none := by
    rw [fault_runAll hw, results_take, ne_eq, Option.map_eq_none_iff]
    apply firstFault?_take
    rwa [length_results]
  have hargs := runAll_append hw hfault (args.drop ((goodFront (results w args)).length + 1))
  rw [List.take_append_drop] at hargs
  rw [runAll_append hw hfault more, hargs]

theorem runAction_eq (hctx : i.ctx = none) (hargs : args ≠ []) (verbose : Bool) :
    runAction i verbose args =
      { runAll none i.input args with
        log := if verbose then (runAll none i.input args).log else [] } := by
  rw [runAction, hctx, if_neg hargs]

theorem printed_runAction (hctx : i.ctx = none) (hw : i.input.Holds w) (hargs : args ≠ [])
    (verbose : Bool) :
    (runAction i verbose args).printed =
      (goodFront (results w args)).flatMap (· ++ Text.ofString "\n") := by
  rw [runAction_eq hctx hargs]
  exact printed_runAll hw args

theorem fault_runAction (hctx : i.ctx = none) (hw : i.input.Holds w) (hargs : args ≠ [])
    (verbose : Bool) :
    (runAction i verbose args).fault =
      (firstFault? (results w args)).map fun f => .expression f.message := by
  rw [runAction_eq hctx hargs]
  exact fault_runAll hw args

/-- The values of the expressions are printed, one a line, up to the first that fails. Its message
is that of the program, which ends with code 1, and nothing after it has any effect. Of the dashes
only the first can come to a value, and it does what the text on standard input would do in its
place. -/
theorem runAction_prints_good_front (i : Invocation) (w : Text) (args : List Text) (verbose : Bool)
    (hctx : i.ctx = none) (hw : i.input.Holds w) (hargs : args ≠ []) :
    let o := runAction i verbose args
    ∃ outs : List Text,
      o.printed = outs.flatMap (· ++ Text.ofString "\n") ∧
      ((results w args = outs.map .ok ∧ o.fault = none) ∨
        ∃ f rest, results w args = outs.map .ok ++ .error f :: rest ∧
          ∃ c, o.fault = some c ∧ c.exitCode? = some 1 ∧ c.message? = some f.message) ∧
      o.log = (if verbose then (args.take (outs.length + 1)).flatMap logged else []) ∧
      (outs.length < args.length →
        ∀ more, runAction i verbose (args.take (outs.length + 1) ++ more) = o) ∧
      (args.take outs.length).count dash ≤ 1 ∧
      ∀ front back, args = front ++ dash :: back → dash ∉ front → w ≠ dash →
        ∀ input v, Source.Holds input v → v = [] ∨ dash ∉ back →
          let o' := runAction { i with input } verbose (front ++ w :: back)
          o'.printed = o.printed ∧ o'.fault = o.fault := by
  intro o
  have hfault := fault_runAction hctx hw hargs verbose
  refine ⟨goodFront (results w args), printed_runAction hctx hw hargs verbose, ?_, ?_, ?_,
    count_dash_front w args, ?_⟩
  · rcases goodFront_spec (results w args) with ⟨hrs, hnone⟩ | ⟨f, rest, hrs, hsome⟩
    · rw [hnone] at hfault
      exact .inl ⟨hrs, hfault⟩
    · rw [hsome] at hfault
      exact .inr ⟨f, rest, hrs, _, hfault, rfl, rfl⟩
  · rw [← log_runAll hw]
    exact congrArg Output.log (runAction_eq hctx hargs verbose)
  · intro hlt more
    have hne : args.take ((goodFront (results w args)).length + 1) ++ more ≠ [] := by
      simp [hargs]
    rw [runAction_eq hctx hne, runAll_take_append hw hlt]
    exact (runAction_eq hctx hargs verbose).symm
  · intro front back he hfront hdash input v hv hback o'
    have hresults : results v (front ++ w :: back) = results w args := by
      rw [results, expressions_of_dash hfront hdash hback, he, results]
    have hne : front ++ w :: back ≠ [] := by simp
    have hprinted' := printed_runAction (i := { i with input }) hctx hv hne verbose
    have hfault' := fault_runAction (i := { i with input }) hctx hv hne verbose
    rw [hresults] at hprinted' hfault'
    exact ⟨hprinted'.trans (printed_runAction hctx hw hargs verbose).symm, hfault'.trans hfault.symm⟩

/-- Of two dashes the first prints what comes in over two chunks, and the second finds nothing left,
so that the last argument is not reached. -/
theorem runAction_prints_before_second_dash :
    let i : Invocation := ⟨[], ⟨["(+ 1", " 2)"], none⟩, none, fun _ => .error .missing⟩
    let o := runAction i false ["()", "-", "-", "()"]
    o.printed = Text.ofString "true\n3\n" ∧ o.exitCode = 1 ∧
      o.complaint = Text.ofString "invalid expression: no parenthesis in tokens\n" := by
  intro i o
  have hw : i.input.Holds (Text.ofString "(+ 1 2)") := ⟨rfl, by decide⟩
  have hempty : Text.run "()" = .ok (Text.ofString "true") := by
    have hscan : tokensOf "()".toList = [.leftParen, .rightParen] := by decide
    have hparse := Text.parse_ofChars hscan rfl (.empty rfl rfl)
    exact Text.run_eq_ok_iff.mpr ⟨_, (Text.eval_eq_iff _ _).mpr ⟨_, hparse, rfl⟩, rfl⟩
  have hsum : Text.run "(+ 1 2)" = .ok (Text.ofString "3") := by
    have hscan : tokensOf "(+ 1 2)".toList = [.leftParen, .word "+".toList, .word "1".toList,
      .word "2".toList, .rightParen] := by decide
    have hone : Derivation [.word "1".toList] (.number 1) :=
      .number (Token.isAtom_of_word rfl) ⟨_, rfl, integer?_eq_some_iff.mp rfl⟩
    have htwo : Derivation [.word "2".toList] (.number 2) :=
      .number (Token.isAtom_of_word rfl) ⟨_, rfl, integer?_eq_some_iff.mp rfl⟩
    have hparse : Text.parse "(+ 1 2)" = .ok (.binary .add (.number 1) (.number 2)) :=
      Text.parse_ofChars hscan rfl (.binary rfl rfl rfl rfl (.cons hone (.cons htwo .nil)) rfl)
    exact Text.run_eq_ok_iff.mpr ⟨_, (Text.eval_eq_iff _ _).mpr ⟨_, hparse, rfl⟩, rfl⟩
  have hresults : results (Text.ofString "(+ 1 2)") ["()", "-", "-", "()"] =
      [.ok (Text.ofString "true"), .ok (Text.ofString "3"), .error (.parse .unexpectedEnd),
        .ok (Text.ofString "true")] := by
    have hexpressions : expressions (Text.ofString "(+ 1 2)") ["()", "-", "-", "()"] =
      [Text.ofString "()", Text.ofString "(+ 1 2)", [], Text.ofString "()"] := by decide
    rw [results, hexpressions, List.map_cons, List.map_cons, List.map_cons, List.map_cons, hempty,
      hsum, run_nil]
    rfl
  obtain ⟨outs, hprinted, hsplit, -⟩ :=
    runAction_prints_good_front i _ ["()", "-", "-", "()"] false rfl hw (by simp)
  rw [hresults] at hsplit
  rcases hsplit with ⟨h, -⟩ | ⟨f, rest, h, c, hc, hcode, hmessage⟩
  · have hmem : Except.error (Fault.parse .unexpectedEnd) ∈ outs.map .ok := by
      rw [← h]
      simp
    simp at hmem
  · have houts := congrArg goodFront h
    rw [goodFront_append] at houts
    obtain rfl : [Text.ofString "true", Text.ofString "3"] = outs := houts
    cases h
    refine ⟨hprinted.trans (by decide), ?_, ?_⟩
    · simp only [Output.exitCode, o, hc, hcode, Option.getD_some]
    · simp only [Output.complaint, o, hc, hmessage, Option.getD_some]
      decide

end Action

end Command

end TinyLisp

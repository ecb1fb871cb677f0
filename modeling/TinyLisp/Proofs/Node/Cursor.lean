import TinyLisp.Proofs.Node.Grammar

/-!
Reading with a cursor.

The tokens stay as they are, and a position in them is moved: a walk looks at the token there, takes
it or goes one back. `Walk.form`, `Walk.body`, `Walk.operands` and `Walk.items` read what the readers
of the same names read, from where the cursor stands. Nothing says beforehand that they end: they
have a result if the calls that are open at once are no more than `depth`. It turns out that three
for each token that is left, and three more, are enough.

A step back is made only to read the token again that was just taken. So a walk never gets behind
where it began, and what it comes to depends on the tokens that it leaves behind and on no others,
unless it fails for want of tokens.
-/

namespace TinyLisp

/-- What is done with a cursor, with its position then and afterwards. -/
inductive Move where
  | peek (pos : Nat)
  | next (pos pos' : Nat)
  | backup (pos pos' : Nat)
  deriving DecidableEq, Repr

/-- A position in a list of tokens, and the moves that led there. -/
structure TokenCursor where
  tokens : List Token
  pos : Nat
  moves : List Move

/-- A reader that moves a cursor. It has no result if it is out of depth. -/
abbrev Walk (α : Type) := ExceptT ParseFault (StateT TokenCursor Option) α

namespace Walk

def outOfDepth {α : Type} : Walk α := ExceptT.mk fun _ => none

/-- The token at the cursor, if there is one. -/
def peek : Walk (Option Token) := do
  let c ← get
  set { c with moves := c.moves ++ [Move.peek c.pos] }
  return c.tokens[c.pos]?

/-- The token at the cursor, which is moved behind it. -/
def next : Walk (Option Token) := do
  let c ← get
  let t? := c.tokens[c.pos]?
  let pos := if t?.isSome then c.pos + 1 else c.pos
  set { c with pos, moves := c.moves ++ [Move.next c.pos pos] }
  return t?

/-- Moves the cursor one back, unless it stands at the front. -/
def backup : Walk Unit := do
  let c ← get
  let pos := if 0 < c.pos then c.pos - 1 else c.pos
  set { c with pos, moves := c.moves ++ [Move.backup c.pos pos] }

mutual

/-- One form. -/
def form : Nat → Walk Node
  | 0 => outOfDepth
  | depth + 1 => do
    match ← next with
    | none => throw .unexpectedEnd
    | some t =>
      match t.kind with
      | .openParen => body depth
      | .closeParen => throw .tooManyCloses
      | .word | .invalid _ => liftExcept t.atom

/-- What follows an open parenthesis, up to and including the matching one. -/
def body : Nat → Walk Node
  | 0 => outOfDepth
  | depth + 1 => do
    match ← next with
    | none => throw .unexpectedEnd
    | some t =>
      match t.formHead with
      | .close => return .sequence []
      | .operator op =>
        let xs ← operands 2 depth
        return .binary op xs.1 xs.2.1
      | .conditional =>
        let xs ← operands 3 depth
        return .conditional xs.1 xs.2.1 xs.2.2.1
      | .item =>
        backup
        let ns ← items depth
        return .sequence ns

/-- Exactly `n` forms and the close parenthesis after them. -/
def operands (n : Nat) : Nat → Walk (Operands n)
  | 0 => outOfDepth
  | depth + 1 =>
    match n with
    | 0 => do
      match ← next with
      | none => throw .unexpectedEnd
      | some t => if t.kind = .closeParen then return () else throw (.unexpectedToken t.text)
    | n + 1 => do
      let x ← form depth
      let xs ← operands n depth
      return (x, xs)

/-- Forms up to a close parenthesis, and that. -/
def items : Nat → Walk (List Node)
  | 0 => outOfDepth
  | depth + 1 => do
    match ← peek with
    | none => throw .unexpectedEnd
    | some t =>
      if t.kind = .closeParen then
        let _ ← next
        return []
      else
        let n ← form depth
        let ns ← items depth
        return n :: ns

end

/-- The tree of the one parenthesised form that the tokens make up. -/
def expression (depth : Nat) : Walk Node := do
  match ← peek with
  | none => throw .unexpectedEnd
  | some t =>
    match t.kind with
    | .openParen =>
      let n ← form depth
      match ← peek with
      | none => return n
      | some extra => throw (.trailingTokens extra.text)
    | .closeParen => throw .tooManyCloses
    | .word | .invalid _ => throw (.missingOpen t.text)

/-- What a walk comes to from a cursor, and where the cursor is then. -/
def run {α : Type} (w : Walk α) (c : TokenCursor) : Option (Except ParseFault α × TokenCursor) :=
  (ExceptT.run w).run c

section Run

variable {α β : Type} {w : Walk α} {f : α → Walk β} {c c' : TokenCursor} {x : α} {e : ParseFault}

theorem run_bind_ok (h : w.run c = some (.ok x, c')) : Walk.run (w >>= f) c = (f x).run c' := by
  simp only [Walk.run, ExceptT.run_bind, StateT.run_bind] at h ⊢
  rw [h]
  rfl

theorem run_bind_error (h : w.run c = some (.error e, c')) :
    Walk.run (w >>= f) c = some (.error e, c') := by
  simp only [Walk.run, ExceptT.run_bind, StateT.run_bind] at h ⊢
  rw [h]
  rfl

theorem run_pure (x : α) (c : TokenCursor) : Walk.run (pure x) c = some (.ok x, c) := rfl

theorem run_throw (e : ParseFault) (c : TokenCursor) :
    Walk.run (throw e : Walk α) c = some (.error e, c) := rfl

theorem run_liftExcept (o : Except ParseFault α) (c : TokenCursor) :
    Walk.run (liftExcept o) c = some (o, c) := by
  cases o <;> rfl

theorem run_peek (c : TokenCursor) : peek.run c =
    some (.ok c.tokens[c.pos]?, { c with moves := c.moves ++ [.peek c.pos] }) := rfl

theorem run_next_none (h : c.tokens[c.pos]? = none) : next.run c =
    some (.ok none, { c with moves := c.moves ++ [.next c.pos c.pos] }) := by
  change some (Except.ok c.tokens[c.pos]?, TokenCursor.mk _ _ _) = _
  rw [h]
  rfl

theorem run_next_some {t : Token} (h : c.tokens[c.pos]? = some t) : next.run c =
    some (.ok (some t),
      { c with pos := c.pos + 1, moves := c.moves ++ [.next c.pos (c.pos + 1)] }) := by
  change some (Except.ok c.tokens[c.pos]?, TokenCursor.mk _ _ _) = _
  rw [h]
  rfl

/-- Behind a token that was taken the guard lets the step back happen. -/
theorem run_backup {pos : Nat} (h : c.pos = pos + 1) : backup.run c =
    some (.ok (), { c with pos, moves := c.moves ++ [.backup (pos + 1) pos] }) := by
  change some (Except.ok (), TokenCursor.mk _ _ _) = _
  rw [h]
  rfl

end Run

end Walk

/-- Moves of which each step back comes right after a token was taken, and returns to where that
token is. -/
inductive Tidy : List Move → Prop
  | nil : Tidy []
  | peek {pos : Nat} {ms : List Move} (h : Tidy ms) : Tidy (.peek pos :: ms)
  | next {pos pos' : Nat} {ms : List Move} (h : Tidy ms) : Tidy (.next pos pos' :: ms)
  | backup {pos : Nat} {ms : List Move} (h : Tidy ms) :
      Tidy (.next pos (pos + 1) :: .backup (pos + 1) pos :: ms)

theorem Tidy.append {ms ns : List Move} (h : Tidy ms) (hns : Tidy ns) : Tidy (ms ++ ns) := by
  induction h with
  | nil => exact hns
  | peek h ih => exact .peek ih
  | next h ih => exact .next ih
  | backup h ih => exact .backup ih

theorem Tidy.next_before_backup {ms before after : List Move} {pos pos' : Nat} (h : Tidy ms)
    (hms : ms = before ++ .backup pos pos' :: after) :
    pos = pos' + 1 ∧ ∃ earlier, before = earlier ++ [.next pos' pos] := by
  induction h generalizing before with
  | nil => simp at hms
  | peek h ih =>
    cases before with
    | nil => cases hms
    | cons m before =>
      obtain ⟨hpos, earlier, rfl⟩ := ih (List.cons.inj hms).2
      exact ⟨hpos, m :: earlier, rfl⟩
  | next h ih =>
    cases before with
    | nil => cases hms
    | cons m before =>
      obtain ⟨hpos, earlier, rfl⟩ := ih (List.cons.inj hms).2
      exact ⟨hpos, m :: earlier, rfl⟩
  | backup h ih =>
    match before with
    | [] => cases hms
    | [m] =>
      cases hms
      exact ⟨rfl, [], rfl⟩
    | m :: m' :: before =>
      obtain ⟨hpos, earlier, rfl⟩ := ih (List.cons.inj (List.cons.inj hms).2).2
      exact ⟨hpos, m :: m' :: earlier, rfl⟩

namespace TokenCursor

/-- The next `k` tokens. -/
def window (c : TokenCursor) (k : Nat) : List Token := (c.tokens.drop c.pos).take k

/-- The cursor stands before the given tokens, which are the last there are. -/
structure Before (c : TokenCursor) (ts : List Token) : Prop where
  pos_le : c.pos ≤ c.tokens.length
  drop_pos : c.tokens.drop c.pos = ts

/-- The cursor was moved in a tidy way, and stands before the given tokens now. -/
structure MovedTo (c : TokenCursor) (rest : List Token) (c' : TokenCursor) : Prop where
  tokens_eq : c'.tokens = c.tokens
  before : c'.Before rest
  tidy : ∃ ms, c'.moves = c.moves ++ ms ∧ Tidy ms

variable {c c' c'' : TokenCursor} {t : Token} {ts rest : List Token}

theorem Before.length_add (h : c.Before ts) : c.pos + ts.length = c.tokens.length := by
  rw [← h.drop_pos, List.length_drop]
  have hle := h.pos_le
  omega

theorem Before.getElem? (h : c.Before ts) : c.tokens[c.pos]? = ts.head? := by
  rw [← h.drop_pos, List.head?_drop]

theorem Before.tail (h : c.Before (t :: ts)) (ms : List Move) :
    Before ⟨c.tokens, c.pos + 1, ms⟩ ts := by
  have hlength := h.length_add
  rw [List.length_cons] at hlength
  refine ⟨by dsimp only; omega, ?_⟩
  have hdrop := congrArg List.tail h.drop_pos
  rwa [List.tail_drop] at hdrop

theorem MovedTo.refl (h : c.Before ts) : c.MovedTo ts c :=
  ⟨rfl, h, [], (List.append_nil _).symm, .nil⟩

theorem MovedTo.trans (h : c.MovedTo ts c') (h' : c'.MovedTo rest c'') : c.MovedTo rest c'' := by
  obtain ⟨ms, hms, htidy⟩ := h.tidy
  obtain ⟨ns, hns, htidy'⟩ := h'.tidy
  refine ⟨h'.tokens_eq.trans h.tokens_eq, h'.before, ms ++ ns, ?_, htidy.append htidy'⟩
  rw [hns, hms, List.append_assoc]

end TokenCursor

namespace Walk

/-- From before the tokens `ts` the walk comes to what the reader comes to, and to the tokens that
the reader leaves. -/
def Follows {α : Type} (w : Walk α) (read : Reader α) (ts : List Token) : Prop :=
  ∀ c : TokenCursor, c.Before ts →
    ∃ c', w.run c = some ((read ts).1, c') ∧ c.MovedTo (read ts).2 c'

section Follows

variable {α β : Type} {w : Walk α} {read read' : Reader α} {f : Option Token → Walk α}
  {t : Token} {ts : List Token} {x : α} {e : ParseFault}

theorem follows_pure (h : read ts = (.ok x, ts)) : Follows (pure x) read ts := by
  intro c hc
  rw [h]
  exact ⟨c, run_pure x c, .refl hc⟩

theorem follows_throw (h : read ts = (.error e, ts)) : Follows (throw e) read ts := by
  intro c hc
  rw [h]
  exact ⟨c, run_throw e c, .refl hc⟩

theorem follows_liftExcept {o : Except ParseFault α} (h : read ts = (o, ts)) :
    Follows (liftExcept o) read ts := by
  intro c hc
  rw [h]
  exact ⟨c, run_liftExcept o c, .refl hc⟩

theorem Follows.congr (h : Follows w read' ts) (he : read ts = read' ts) :
    Follows w read ts := by
  intro c hc
  rw [he]
  exact h c hc

theorem Follows.peek (h : Follows (f ts.head?) read ts) : Follows (Walk.peek >>= f) read ts := by
  intro c hc
  have hpeek := run_peek c
  rw [hc.getElem?] at hpeek
  have hmoved : c.MovedTo ts { c with moves := c.moves ++ [.peek c.pos] } :=
    ⟨rfl, ⟨hc.pos_le, hc.drop_pos⟩, _, rfl, .peek .nil⟩
  obtain ⟨c', hrun, hc'⟩ := h _ hmoved.before
  exact ⟨c', (run_bind_ok hpeek).trans hrun, hmoved.trans hc'⟩

theorem Follows.next_nil (h : f none = throw e) (he : read [] = (.error e, [])) :
    Follows (Walk.next >>= f) read [] := by
  intro c hc
  have hnext := run_next_none hc.getElem?
  have hmoved : c.MovedTo [] { c with moves := c.moves ++ [.next c.pos c.pos] } :=
    ⟨rfl, ⟨hc.pos_le, hc.drop_pos⟩, _, rfl, .next .nil⟩
  rw [he]
  refine ⟨_, (run_bind_ok hnext).trans ?_, hmoved⟩
  rw [h]
  rfl

/-- The token that is taken is one that the reader skips. -/
theorem Follows.next_cons (h : Follows (f (some t)) read' ts) (he : read (t :: ts) = read' ts) :
    Follows (Walk.next >>= f) read (t :: ts) := by
  intro c hc
  have hnext := run_next_some hc.getElem?
  have hmoved : c.MovedTo ts
      { c with pos := c.pos + 1, moves := c.moves ++ [.next c.pos (c.pos + 1)] } :=
    ⟨rfl, hc.tail _, _, rfl, .next .nil⟩
  obtain ⟨c', hrun, hc'⟩ := h _ hmoved.before
  rw [he]
  exact ⟨c', (run_bind_ok hnext).trans hrun, hmoved.trans hc'⟩

/-- The token that is taken is given back. -/
theorem Follows.next_backup (hf : f (some t) = Walk.backup >>= fun _ => w)
    (h : Follows w read (t :: ts)) : Follows (Walk.next >>= f) read (t :: ts) := by
  intro c hc
  have hnext := run_next_some hc.getElem?
  have hbackup := run_backup
    (c := { c with pos := c.pos + 1, moves := c.moves ++ [.next c.pos (c.pos + 1)] }) rfl
  have hmoved : c.MovedTo (t :: ts) { c with
      moves := c.moves ++ [.next c.pos (c.pos + 1)] ++ [.backup (c.pos + 1) c.pos] } :=
    ⟨rfl, ⟨hc.pos_le, hc.drop_pos⟩, _, List.append_assoc .., .backup .nil⟩
  obtain ⟨c', hrun, hc'⟩ := h _ hmoved.before
  refine ⟨c', (run_bind_ok hnext).trans ?_, hmoved.trans hc'⟩
  rw [hf]
  exact (run_bind_ok hbackup).trans hrun

theorem Follows.bind {g : α → Walk β} {after : α → Reader β} (h : Follows w read ts)
    (hg : ∀ x rest, read ts = (.ok x, rest) → Follows (g x) (after x) rest) :
    Follows (w >>= g) (read.bind after) ts := by
  intro c hc
  obtain ⟨c', hrun, hc'⟩ := h c hc
  rw [Reader.bind]
  cases hread : read ts with
  | mk o rest =>
    rw [hread] at hrun hc'
    cases o with
    | error e => exact ⟨c', run_bind_error hrun, hc'⟩
    | ok x =>
      obtain ⟨c'', hrun', hc''⟩ := hg x rest hread c' hc'.before
      exact ⟨c'', (run_bind_ok hrun).trans hrun', hc'.trans hc''⟩

theorem Follows.map (h : Follows w read ts) (g : α → β) :
    Follows (w >>= fun x => pure (g x)) (read.map g) ts := by
  intro c hc
  obtain ⟨c', hrun, hc'⟩ := h c hc
  refine ⟨c', ?_, hc'⟩
  rw [Reader.map]
  cases hread : (read ts).1 with
  | error e =>
    rw [hread] at hrun
    exact run_bind_error hrun
  | ok x =>
    rw [hread] at hrun
    exact run_bind_ok hrun

end Follows

section Readers

variable {ts rest : List Token} {n : Node}

theorem length_lt_of_form (h : Reader.form ts = (.ok n, rest)) : rest.length < ts.length := by
  obtain ⟨taken, rfl, hd⟩ := Derives.of_form h
  have hpos := List.length_pos_iff.mpr hd.ne_nil
  rw [List.length_append]
  omega

mutual

theorem form_follows (depth : Nat) (ts : List Token) (h : 3 * ts.length + 1 ≤ depth) :
    Follows (form depth) Reader.form ts := by
  match depth, ts with
  | 0, _ => omega
  | depth + 1, [] =>
    rw [form]
    exact .next_nil rfl Reader.form_nil
  | depth + 1, t :: ts =>
    rw [List.length_cons] at h
    rw [form]
    cases hk : t.kind with
    | openParen =>
      apply Follows.next_cons _ (Reader.form_open hk)
      simp only [hk]
      exact body_follows depth ts (by omega)
    | closeParen =>
      apply Follows.next_cons _ (Reader.form_close hk)
      simp only [hk]
      exact follows_throw rfl
    | word =>
      apply Follows.next_cons _ (Reader.form_atom (Token.isAtom_of_word hk))
      simp only [hk]
      exact follows_liftExcept rfl
    | invalid code =>
      apply Follows.next_cons _ (Reader.form_atom ⟨by simp [hk], by simp [hk]⟩)
      simp only [hk]
      exact follows_liftExcept rfl
termination_by depth

theorem body_follows (depth : Nat) (ts : List Token) (h : 3 * ts.length + 3 ≤ depth) :
    Follows (body depth) Reader.body ts := by
  match depth, ts with
  | 0, _ => omega
  | depth + 1, [] =>
    rw [body]
    exact .next_nil rfl Reader.body_nil
  | depth + 1, t :: ts =>
    rw [List.length_cons] at h
    rw [body]
    cases hh : t.formHead with
    | close =>
      apply Follows.next_cons _ (Reader.body_close hh)
      simp only [hh]
      exact follows_pure rfl
    | operator op =>
      apply Follows.next_cons _ (Reader.body_operator hh)
      simp only [hh]
      exact (operands_follows 2 depth ts (by omega)).map _
    | conditional =>
      apply Follows.next_cons _ (Reader.body_conditional hh)
      simp only [hh]
      exact (operands_follows 3 depth ts (by omega)).map _
    | item =>
      have hitems := items_follows depth (t :: ts) (by rw [List.length_cons]; omega)
      apply Follows.next_backup _ ((hitems.map .sequence).congr (Reader.body_item hh))
      simp only [hh]
termination_by depth

theorem operands_follows (n depth : Nat) (ts : List Token) (h : 3 * ts.length + 2 ≤ depth) :
    Follows (operands n depth) (Reader.operands n) ts := by
  match n, depth, ts with
  | _, 0, _ => omega
  | 0, depth + 1, [] =>
    rw [operands]
    exact .next_nil rfl (Reader.operands_nil 0)
  | 0, depth + 1, t :: ts =>
    rw [operands]
    by_cases hc : t.kind = .closeParen
    · apply Follows.next_cons _ (Reader.operands_zero_close hc)
      simp only [hc]
      exact follows_pure rfl
    · apply Follows.next_cons _ (Reader.operands_zero_other hc)
      simp only [hc]
      exact follows_throw rfl
  | n + 1, depth + 1, ts =>
    rw [operands, Reader.operands_succ]
    apply (form_follows depth ts (by omega)).bind
    intro x rest hread
    have hshort := length_lt_of_form hread
    exact (operands_follows n depth rest (by omega)).map _
termination_by depth

theorem items_follows (depth : Nat) (ts : List Token) (h : 3 * ts.length + 2 ≤ depth) :
    Follows (items depth) Reader.items ts := by
  match depth, ts with
  | 0, _ => omega
  | depth + 1, [] =>
    rw [items]
    exact .peek (follows_throw Reader.items_nil)
  | depth + 1, t :: ts =>
    rw [items]
    apply Follows.peek
    by_cases hc : t.kind = .closeParen
    · simp only [List.head?_cons, hc]
      exact .next_cons (follows_pure rfl) (Reader.items_close hc)
    · simp only [List.head?_cons, hc]
      apply Follows.congr _ (Reader.items_other hc)
      apply (form_follows depth (t :: ts) (by omega)).bind
      intro x rest hread
      have hshort := length_lt_of_form hread
      exact (items_follows depth rest (by omega)).map _
termination_by depth

end

end Readers

end Walk

namespace Reader

/-- The tree, unless there are tokens left. -/
def alone (n : Node) : Reader Node
  | [] => (.ok n, [])
  | t :: ts => (.error (.trailingTokens t.text), t :: ts)

/-- The tree of all the tokens. None of them is taken if they do not begin like a form. -/
def expression : Reader Node
  | [] => (.error .unexpectedEnd, [])
  | t :: ts =>
    match t.kind with
    | .openParen => form.bind alone (t :: ts)
    | .closeParen => (.error .tooManyCloses, t :: ts)
    | .word | .invalid _ => (.error (.missingOpen t.text), t :: ts)

theorem fst_expression (ts : List Token) : (expression ts).1 = Node.ofTokens ts := by
  cases ts with
  | nil => rfl
  | cons t ts =>
    rw [expression]
    cases hk : t.kind with
    | openParen =>
      rw [Node.ofTokens_open hk, bind]
      cases form (t :: ts) with
      | mk o rest => cases o <;> cases rest <;> rfl
    | closeParen => rw [Node.ofTokens, hk]
    | word => rw [Node.ofTokens, hk]
    | invalid code => rw [Node.ofTokens, hk]

/-- What the reader takes settles what it comes to: by itself, or by being all there is when the
reader wants more. -/
def IsLocalAt {α : Type} (read : Reader α) (ts : List Token) : Prop :=
  ∃ taken, ts = taken ++ (read ts).2 ∧ ((read ts).1.isOk → taken ≠ []) ∧
    (read.Settles taken (read ts).1 ∨ read ts = (.error .unexpectedEnd, []))

section Local

variable {α : Type} {G : List Token → α → Prop} {read : Reader α} {ts : List Token}

theorem Run.isLocalAt (h : Run G read ts) (hG : ∀ {p x}, G p x → read.Settles p (.ok x))
    (hne : ∀ {p x}, G p x → p ≠ []) : read.IsLocalAt ts := by
  cases h with
  | @done taken rest x hts hx =>
    have hread : read ts = (.ok x, rest) := hts ▸ hG hx rest
    rw [IsLocalAt, hread]
    exact ⟨taken, hts, fun _ => hne hx, .inl (hG hx)⟩
  | @failed taken rest t e hts hb hs =>
    rw [← List.singleton_append, ← List.append_assoc] at hts
    have hread : read ts = (.error e, rest) := hts ▸ hs rest
    rw [IsLocalAt, hread]
    exact ⟨taken ++ [t], hts, nofun, .inl hs⟩
  | unfinished hr hx =>
    rw [IsLocalAt, hr]
    exact ⟨ts, (List.append_nil ts).symm, nofun, .inr rfl⟩

theorem form_isLocalAt (ts : List Token) : form.IsLocalAt ts :=
  (form_run ts).isLocalAt Derives.settles Derives.ne_nil

theorem settles_of_derivesBody {p : List Token} {n : Node} (h : DerivesBody p n) :
    body.Settles p (.ok n) := by
  intro us
  have hform := (h .leftParen rfl).settles us
  rwa [List.cons_append, form_open rfl] at hform

theorem body_isLocalAt (ts : List Token) : body.IsLocalAt ts := by
  apply (body_run ts).isLocalAt settles_of_derivesBody
  rintro _ n h rfl
  have hread := settles_of_derivesBody h []
  rw [List.append_nil, body_nil] at hread
  cases hread

theorem operands_isLocalAt (n : Nat) (ts : List Token) : (operands n).IsLocalAt ts := by
  apply (operands_run n ts).isLocalAt _ ClosedForms.ne_nil
  rintro p xs ⟨us, c, rfl, hc, ⟨ds⟩⟩
  exact (ds.settles hc).2 n xs rfl

theorem items_isLocalAt (ts : List Token) : items.IsLocalAt ts := by
  apply (items_run ts).isLocalAt _ ClosedForms.ne_nil
  rintro p ns ⟨us, c, rfl, hc, ⟨ds⟩⟩
  exact (ds.settles hc).1

end Local

end Reader

namespace Walk

/-- Begun at `c`, the walk ends with the outcome `o` at a cursor that is `k` tokens further on, and
with no more calls open at once than three for each token left, and three. -/
structure Ends {α : Type} (w : Nat → Walk α) (c : TokenCursor) (o : Except ParseFault α)
    (k : Nat) : Prop where
  run_eq : ∀ depth, 3 * (c.tokens.length - c.pos) + 3 ≤ depth →
    ∃ ms, Tidy ms ∧ (w depth).run c = some (o, ⟨c.tokens, c.pos + k, c.moves ++ ms⟩)
  pos_le : c.pos + k ≤ c.tokens.length
  pos_lt : o.isOk → c.pos < c.pos + k

/-- From every cursor the walk ends, with what the reader comes to and where the reader stops. From
any other one it does the same if it finds the same tokens up to there, and no token after them
when it wants more. -/
def Disciplined {α : Type} (w : Nat → Walk α) (read : Reader α) : Prop :=
  ∀ c : TokenCursor, c.pos ≤ c.tokens.length →
    let r := read (c.tokens.drop c.pos)
    ∃ k, r.2 = c.tokens.drop (c.pos + k) ∧ Ends w c r.1 k ∧
      ∀ d : TokenCursor, d.pos ≤ d.tokens.length → d.window k = c.window k →
        (r.1 = .error .unexpectedEnd → d.pos + k = d.tokens.length) → Ends w d r.1 k

section Disciplined

variable {α : Type} {w : Nat → Walk α} {read : Reader α} {c : TokenCursor} {o : Except ParseFault α}
  {taken rest : List Token}

theorem ends_of_follows
    (hw : ∀ depth ts, 3 * ts.length + 3 ≤ depth → Follows (w depth) read ts)
    (hc : c.Before (taken ++ rest)) (hread : read (taken ++ rest) = (o, rest))
    (hne : o.isOk → taken ≠ []) : Ends w c o taken.length := by
  have hlength := hc.length_add
  rw [List.length_append] at hlength
  refine ⟨?_, by omega, ?_⟩
  · intro depth hdepth
    obtain ⟨c', hrun, hmoved⟩ := hw depth (taken ++ rest) (by rw [List.length_append]; omega) c hc
    rw [hread] at hrun hmoved
    obtain ⟨ms, hms, htidy⟩ := hmoved.tidy
    have hlength' : c'.pos + rest.length = c.tokens.length := by
      rw [← hmoved.tokens_eq]
      exact hmoved.before.length_add
    have hpos : c'.pos = c.pos + taken.length := by omega
    refine ⟨ms, htidy, ?_⟩
    rw [hrun, ← hmoved.tokens_eq, ← hpos, ← hms]
  · intro hok
    have hpos := List.length_pos_iff.mpr (hne hok)
    omega

theorem disciplined_of_follows
    (hw : ∀ depth ts, 3 * ts.length + 3 ≤ depth → Follows (w depth) read ts)
    (hlocal : ∀ ts, read.IsLocalAt ts) : Disciplined w read := by
  intro c hc r
  obtain ⟨taken, hts, hne, hsettled⟩ := hlocal (c.tokens.drop c.pos)
  change c.tokens.drop c.pos = taken ++ r.2 at hts
  have hwindow : c.window taken.length = taken := by
    rw [TokenCursor.window, hts, List.take_left]
  refine ⟨taken.length, ?_, ends_of_follows hw ⟨hc, hts⟩ (by rw [← hts]) hne, ?_⟩
  · rw [← List.drop_drop, hts, List.drop_left]
  · intro d hd hsame hend
    have htaken : (d.tokens.drop d.pos).take taken.length = taken := hsame.trans hwindow
    have hts' : d.tokens.drop d.pos = taken ++ d.tokens.drop (d.pos + taken.length) := by
      have hsplit := List.take_append_drop taken.length (d.tokens.drop d.pos)
      rw [htaken, List.drop_drop] at hsplit
      exact hsplit.symm
    refine ends_of_follows hw ⟨hd, hts'⟩ ?_ hne
    rcases hsettled with hs | hr
    · exact hs _
    · have ho : r = (.error .unexpectedEnd, []) := hr
      rw [ho] at hts hend
      rw [hend rfl, List.drop_length, ho, ← hts]
      exact hr

theorem expression_follows (depth : Nat) (ts : List Token) (h : 3 * ts.length + 1 ≤ depth) :
    Follows (expression depth) Reader.expression ts := by
  rw [expression]
  apply Follows.peek
  cases ts with
  | nil => exact follows_throw rfl
  | cons t ts =>
    rw [List.head?_cons]
    cases hk : t.kind with
    | openParen =>
      have hread : Reader.expression (t :: ts) = Reader.form.bind Reader.alone (t :: ts) := by
        rw [Reader.expression, hk]
      apply Follows.congr _ hread
      simp only [hk]
      apply (form_follows depth (t :: ts) h).bind
      intro n rest hrest
      apply Follows.peek
      cases rest with
      | nil => exact follows_pure rfl
      | cons extra rest => exact follows_throw rfl
    | closeParen =>
      simp only [hk]
      exact follows_throw (by rw [Reader.expression, hk])
    | word =>
      simp only [hk]
      exact follows_throw (by rw [Reader.expression, hk])
    | invalid code =>
      simp only [hk]
      exact follows_throw (by rw [Reader.expression, hk])

/-- A cursor that is moved as reading goes on never gets behind where a form or its parts began, and
gets further when reading succeeds. What reading comes to depends on the tokens in between and, when
it is in want of tokens, on their being the last. It ends, with the outcome that is read from the
tokens alone, and every step back undoes the taking of a token right before it. -/
theorem walks_are_disciplined :
    Disciplined form Reader.form ∧ Disciplined body Reader.body ∧
    (∀ n, Disciplined (operands n) (Reader.operands n)) ∧ Disciplined items Reader.items ∧
    ∀ (ts : List Token) (depth : Nat), 3 * ts.length + 3 ≤ depth →
      ∃ c', (expression depth).run ⟨ts, 0, []⟩ = some (Node.ofTokens ts, c') ∧
        c'.tokens = ts ∧ c'.pos ≤ ts.length ∧
        ∀ before pos pos' after, c'.moves = before ++ .backup pos pos' :: after →
          pos = pos' + 1 ∧ ∃ earlier, before = earlier ++ [.next pos' pos] := by
  refine ⟨?_, ?_, ?_, ?_, ?_⟩
  · exact disciplined_of_follows (fun depth ts h => form_follows depth ts (by omega))
      Reader.form_isLocalAt
  · exact disciplined_of_follows body_follows Reader.body_isLocalAt
  · intro n
    exact disciplined_of_follows (fun depth ts h => operands_follows n depth ts (by omega))
      (Reader.operands_isLocalAt n)
  · exact disciplined_of_follows (fun depth ts h => items_follows depth ts (by omega))
      Reader.items_isLocalAt
  · intro ts depth h
    have hbefore : TokenCursor.Before ⟨ts, 0, []⟩ ts := ⟨Nat.zero_le _, rfl⟩
    obtain ⟨c', hrun, hmoved⟩ := expression_follows depth ts (by omega) _ hbefore
    obtain ⟨ms, hms, htidy⟩ := hmoved.tidy
    rw [Reader.fst_expression] at hrun
    rw [List.nil_append] at hms
    have hpos := hmoved.before.pos_le
    rw [hmoved.tokens_eq] at hpos
    refine ⟨c', hrun, hmoved.tokens_eq, hpos, ?_⟩
    intro before pos pos' after hbackup
    exact htidy.next_before_backup (hms.symm.trans hbackup)

/-- A form of two tokens is read in the middle of others as it is read at their end. -/
theorem walks_are_disciplined_within :
    let c : TokenCursor := ⟨[.leftParen, .leftParen, .rightParen, .word ['x']], 1, []⟩
    let d : TokenCursor := ⟨[.leftParen, .rightParen], 0, []⟩
    c.pos ≤ c.tokens.length ∧ d.pos ≤ d.tokens.length ∧ d.window 2 = c.window 2 ∧
      Ends form c (.ok (.sequence [])) 2 ∧ Ends form d (.ok (.sequence [])) 2 := by
  intro c d
  have hform : Reader.form.Settles [.leftParen, .rightParen] (.ok (.sequence [])) :=
    (Derivation.empty rfl rfl).settles
  have hread : Reader.form (c.tokens.drop c.pos) = (.ok (.sequence []), [.word ['x']]) :=
    hform [.word ['x']]
  obtain ⟨k, hrest, hends, hsame⟩ := walks_are_disciplined.1 c (by decide)
  rw [hread] at hrest hends hsame
  obtain rfl : k = 2 := by
    have hlength := congrArg List.length hrest
    have hle := hends.pos_le
    simp only [c, List.length_drop, List.length_cons, List.length_nil] at hlength hle
    omega
  exact ⟨by decide, by decide, rfl, hends, hsame d (by decide) rfl nofun⟩

end Disciplined

end Walk

end TinyLisp

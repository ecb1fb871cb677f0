import Mathlib.Data.List.Basic
import TinyLisp.Proofs.Text.Lines

/-!
The outline of a tree.

It has one line for each node, a parent before its children. Nothing in it marks the end of a child,
and the line of a missing one does not even show how deep it stands; but each line tells how many
children its node has, and that is enough to find the tree again.
-/

namespace TinyLisp

theorem NodeKind.eq_of_name {j k : NodeKind} (h : j.name = k.name) : j = k := by
  cases j <;> cases k <;> simp_all [NodeKind.name]

theorem NodeKind.paren_notMem_name (k : NodeKind) : ')' ∉ k.name.toList := by
  cases k <;> decide

theorem Operator.eq_of_symbol {o p : Operator} (ho : o.isKnown) (hp : p.isKnown)
    (h : o.symbol = p.symbol) : o = p := by
  cases o <;> cases p <;> simp_all [Operator.symbol, Operator.isKnown]

theorem spellBool_injective {a b : Bool} (h : spellBool a = spellBool b) : a = b := by
  cases a <;> cases b <;> simp_all [spellBool]

namespace Node

section Visits

variable {m n : Node} {d : Nat}

theorem sizeOf_lt_of_mem_children (h : m ∈ n.children) : sizeOf m < sizeOf n := by
  cases n with
  | nil => cases h
  | number => cases h
  | boolean => cases h
  | binary op l r =>
    rw [children, List.mem_cons, List.mem_singleton] at h
    rw [binary.sizeOf_spec]
    rcases h with rfl | rfl <;> omega
  | conditional c y z =>
    rw [children, List.mem_cons, List.mem_cons, List.mem_singleton] at h
    rw [conditional.sizeOf_spec]
    rcases h with rfl | rfl | rfl <;> omega
  | sequence ns =>
    have hlt := List.sizeOf_lt_of_mem h
    simp only [children, sequence.sizeOf_spec] at hlt ⊢
    omega

theorem children_induction {motive : Node → Prop}
    (step : ∀ n : Node, (∀ m ∈ n.children, motive m) → motive n) (n : Node) : motive n := by
  apply step
  intro m hm
  have := sizeOf_lt_of_mem_children hm
  exact children_induction step m
termination_by sizeOf n

/-- The nodes of a tree with their depths, a node before its children, these from left to right. -/
def visits (depth : Nat) (n : Node) : List (Nat × Node) :=
  (depth, n) :: n.children.attach.flatMap fun m => m.1.visits (depth + 1)
termination_by sizeOf n
decreasing_by exact sizeOf_lt_of_mem_children m.2

theorem visits_eq (d : Nat) (n : Node) :
    n.visits d = (d, n) :: n.children.flatMap (visits (d + 1)) := by
  rw [visits, List.flatMap_def, List.flatMap_def, List.attach_map_val]

/-- What the line of a node says after the kind of the node. -/
def detail : Node → List Char
  | .nil => []
  | .number v => ": ".toList ++ decimal v.toInt
  | .boolean b => ": ".toList ++ spellBool b
  | .binary op _ _ => ": ".toList ++ op.symbol.toList
  | .conditional .. => ": if".toList
  | .sequence ns => '[' :: decimal ns.length ++ [']']

/-- The line of a node at a depth. -/
def lineAt (depth : Nat) (n : Node) : List Char :=
  match n.kind? with
  | none => ":nil".toList
  | some kind => List.replicate (4 * depth) ' ' ++ '(' :: (kind.name.toList ++ ')' :: n.detail)

theorem indent_append_header (d : Nat) (n : Node) : indent d n ++ header n = n.lineAt d := by
  -- The equations of `header` are out of reach: proving them computes every string in it.
  delta header
  cases n with
  | nil => simp [indent, lineAt, kind?]
  | number => simp [indent, lineAt, kind?, detail, NodeKind.name]
  | boolean => simp [indent, lineAt, kind?, detail, NodeKind.name]
  | binary => simp [indent, lineAt, kind?, detail, NodeKind.name]
  | conditional => simp [indent, lineAt, kind?, detail, NodeKind.name]
  | sequence ns => simp [indent, lineAt, kind?, detail, decimal, NodeKind.name]

theorem outlineItems_eq (d : Nat) (ns : List Node) :
    outlineItems d ns = ns.flatMap (outlineLines d) := by
  induction ns with
  | nil => rfl
  | cons n ns ih => rw [outlineItems, ih, List.flatMap_cons]

theorem outlineLines_eq (d : Nat) (n : Node) :
    n.outlineLines d = n.lineAt d :: n.children.flatMap (outlineLines (d + 1)) := by
  rw [← indent_append_header]
  cases n with
  | nil => rfl
  | number => rfl
  | boolean => rfl
  | binary op l r => simp [outlineLines, children]
  | conditional c y z => simp [outlineLines, children]
  | sequence ns => rw [outlineLines, outlineItems_eq, children]

theorem outlineLines_eq_map_visits (n : Node) (d : Nat) :
    n.outlineLines d = (n.visits d).map fun v => v.2.lineAt v.1 := by
  induction n using children_induction generalizing d with
  | step n ih =>
    rw [outlineLines_eq, visits_eq, List.map_cons, List.map_flatMap]
    congr 1
    apply List.flatMap_congr
    intro m hm
    exact ih m hm (d + 1)

theorem allPrintable_detail (n : Node) : AllPrintable n.detail := by
  cases n with
  | nil => exact allPrintable_of_all rfl
  | number v => exact .append (allPrintable_of_all rfl) (allPrintable_decimal _)
  | boolean b => exact .append (allPrintable_of_all rfl) (allPrintable_spellBool b)
  | binary op l r =>
    apply AllPrintable.append (allPrintable_of_all rfl)
    apply allPrintable_of_all
    cases op <;> rfl
  | conditional => exact allPrintable_of_all rfl
  | sequence ns => exact .cons rfl (.append (allPrintable_decimal _) (allPrintable_of_all rfl))

theorem allPrintable_lineAt (n : Node) (d : Nat) : AllPrintable (n.lineAt d) := by
  rw [lineAt]
  split
  · exact allPrintable_of_all rfl
  · rename_i kind hkind
    have hindent : AllPrintable (List.replicate (4 * d) ' ') := by
      intro c hc
      rw [List.eq_of_mem_replicate hc]
      rfl
    have hname : AllPrintable kind.name.toList := by
      apply allPrintable_of_all
      cases kind <;> rfl
    exact hindent.append (.cons rfl (hname.append (.cons rfl n.allPrintable_detail)))

end Visits

/-- Every operator in the tree has a meaning; subtrees may be missing. -/
inductive KnowsOperators : Node → Prop
  | intro {n : Node} (here : ∀ op l r, n = .binary op l r → op.isKnown)
      (below : ∀ m ∈ n.children, KnowsOperators m) : KnowsOperators n

section Determined

variable {m n : Node} {d : Nat} {ls ks : List (List Char)} {ms ns : List Node}

theorem eq_nil_of_kind? (h : n.kind? = none) : n = .nil := by
  cases n with
  | nil => rfl
  | _ => cases h

theorem lineAt_of_kind? {k : NodeKind} (h : n.kind? = some k) (d : Nat) :
    n.lineAt d = List.replicate (4 * d) ' ' ++ '(' :: (k.name.toList ++ ')' :: n.detail) := by
  rw [lineAt, h]

theorem lineAt_ne_nil {k : NodeKind} (h : n.kind? = some k) (d : Nat) :
    n.lineAt d ≠ nil.lineAt d := by
  intro he
  rw [lineAt_of_kind? h, lineAt, kind?] at he
  have hhead := congrArg List.head? he
  rw [List.head?_append, List.head?_replicate] at hhead
  split at hhead <;> exact absurd hhead (by simp)

theorem kind?_eq_of_lineAt (h : m.lineAt d = n.lineAt d) :
    m.kind? = n.kind? ∧ m.detail = n.detail := by
  cases hm : m.kind? with
  | none =>
    obtain rfl := eq_nil_of_kind? hm
    cases hn : n.kind? with
    | none =>
      obtain rfl := eq_nil_of_kind? hn
      exact ⟨rfl, rfl⟩
    | some k => exact absurd h.symm (lineAt_ne_nil hn d)
  | some j =>
    cases hn : n.kind? with
    | none =>
      obtain rfl := eq_nil_of_kind? hn
      exact absurd h (lineAt_ne_nil hm d)
    | some k =>
      rw [lineAt_of_kind? hm, lineAt_of_kind? hn] at h
      have hshown := (List.cons.inj (List.append_cancel_left h)).2
      obtain ⟨hname, hdetail⟩ :=
        append_cons_inj j.paren_notMem_name k.paren_notMem_name hshown
      rw [NodeKind.eq_of_name (String.toList_inj.mp hname)]
      exact ⟨rfl, hdetail⟩

/-- A line tells everything about its node but what the children are. -/
theorem eq_of_lineAt (hm : m.KnowsOperators) (hn : n.KnowsOperators)
    (h : m.lineAt d = n.lineAt d) :
    m.children.length = n.children.length ∧ (m.children = n.children → m = n) := by
  obtain ⟨hkind, hdetail⟩ := kind?_eq_of_lineAt h
  match m, n, hkind with
  | .nil, .nil, _ => exact ⟨rfl, fun _ => rfl⟩
  | .number v, .number w, _ =>
    have hvw := Int32.toInt_inj.mp (decimal_injective (List.append_cancel_left hdetail))
    exact ⟨rfl, fun _ => hvw ▸ rfl⟩
  | .boolean a, .boolean b, _ =>
    have hab := spellBool_injective (List.append_cancel_left hdetail)
    exact ⟨rfl, fun _ => hab ▸ rfl⟩
  | .binary o l r, .binary p l' r', _ =>
    refine ⟨rfl, ?_⟩
    intro hchildren
    cases hchildren
    cases hm with
    | intro ho _ =>
      cases hn with
      | intro hp _ =>
        have hop := Operator.eq_of_symbol (ho o l r rfl) (hp p l r rfl)
          (String.toList_inj.mp (List.append_cancel_left hdetail))
        rw [hop]
  | .conditional c y z, .conditional c' y' z', _ =>
    refine ⟨rfl, ?_⟩
    intro hchildren
    cases hchildren
    rfl
  | .sequence ms, .sequence ns, _ =>
    have hlength := decimal_injective (List.append_cancel_right (List.cons.inj hdetail).2)
    exact ⟨Int.ofNat.inj hlength, congrArg sequence⟩

theorem KnowsOperators.of_mem_children (h : n.KnowsOperators) (hm : m ∈ n.children) :
    m.KnowsOperators := by
  cases h with
  | intro _ below => exact below m hm

/-- The tree can be read off the front of any lines that begin with its own. -/
def IsReadOff (m : Node) : Prop :=
  ∀ (n : Node) (d : Nat) (ls ks : List (List Char)), n.KnowsOperators →
    m.outlineLines d ++ ls = n.outlineLines d ++ ks → m = n ∧ ls = ks

/-- As many trees can be read off as there are. -/
theorem flatMap_outlineLines_inj (hlength : ms.length = ns.length) (hms : ∀ m ∈ ms, m.IsReadOff)
    (hns : ∀ n ∈ ns, n.KnowsOperators)
    (h : ms.flatMap (outlineLines d) ++ ls = ns.flatMap (outlineLines d) ++ ks) :
    ms = ns ∧ ls = ks := by
  induction ms generalizing ns with
  | nil =>
    obtain rfl := List.length_eq_zero_iff.mp hlength.symm
    exact ⟨rfl, h⟩
  | cons m ms ih =>
    cases ns with
    | nil => cases hlength
    | cons n ns =>
      obtain ⟨hm, hmore⟩ := List.forall_mem_cons.mp hms
      obtain ⟨hn, hmore'⟩ := List.forall_mem_cons.mp hns
      rw [List.flatMap_cons, List.flatMap_cons, List.append_assoc, List.append_assoc] at h
      obtain ⟨rfl, hrest⟩ := hm n d _ _ hn h
      obtain ⟨rfl, hend⟩ := ih (Nat.succ.inj hlength) hmore hmore' hrest
      exact ⟨rfl, hend⟩

theorem KnowsOperators.isReadOff (hm : m.KnowsOperators) : m.IsReadOff := by
  induction m using children_induction with
  | step m ih =>
    intro n d ls ks hn h
    rw [outlineLines_eq, outlineLines_eq, List.cons_append, List.cons_append] at h
    obtain ⟨hline, hrest⟩ := List.cons.inj h
    obtain ⟨hlength, heq⟩ := eq_of_lineAt hm hn hline
    have hread : ∀ k ∈ m.children, k.IsReadOff := by
      intro k hk
      exact ih k hk (hm.of_mem_children hk)
    obtain ⟨hchildren, hend⟩ :=
      flatMap_outlineLines_inj hlength hread (fun k hk => hn.of_mem_children hk) hrest
    exact ⟨heq hchildren, hend⟩

/-- The lines of an outline as texts. -/
def visitLines (n : Node) : List Text := (n.visits 0).map fun v => Text.ofChars (v.2.lineAt v.1)

theorem isLine_of_mem_visitLines {t : Text} (h : t ∈ n.visitLines) : t.IsLine := by
  obtain ⟨v, -, rfl⟩ := List.mem_map.mp h
  exact Text.isLine_ofChars (v.2.allPrintable_lineAt v.1)

theorem outline_eq (n : Node) : n.outline = n.visitLines.flatMap (· ++ [10]) := by
  rw [outline, outlineLines_eq_map_visits, visitLines]
  induction n.visits 0 with
  | nil => rfl
  | cons v vs ih =>
    rw [List.map_cons, List.map_cons, List.flatMap_cons, List.flatMap_cons, Text.ofChars_append, ih,
      Text.ofChars_append]
    rfl

theorem split_outline (n : Node) : Text.split 10 n.outline = n.visitLines ++ [[]] := by
  rw [outline_eq]
  apply Text.split_lines
  intro t ht
  exact (isLine_of_mem_visitLines ht).lineFeed_notMem

theorem outlineLines_eq_of_outline (h : m.outline = n.outline) :
    m.outlineLines 0 = n.outlineLines 0 := by
  have hsplit := congrArg (Text.split 10) h
  rw [split_outline, split_outline] at hsplit
  have hchars := congrArg (List.map Text.chars) (List.append_cancel_right hsplit)
  simpa [visitLines, outlineLines_eq_map_visits, Function.comp_def] using hchars

/-- An outline has one line for each node, in pre-order and indented by depth. Trees that differ
have different outlines, be it that subtrees are missing, as long as operators have a meaning. -/
theorem outline_lists_and_determines :
    (∀ n : Node,
      let lines := (n.visits 0).map fun v => Text.ofChars (v.2.lineAt v.1)
      n.outline = lines.flatMap (· ++ [10]) ∧ ∀ line ∈ lines, 10 ∉ line) ∧
    (∀ m n : Node, m.KnowsOperators → n.KnowsOperators → m.outline = n.outline → m = n) := by
  constructor
  · intro n
    exact ⟨n.outline_eq, fun line h => (isLine_of_mem_visitLines h).lineFeed_notMem⟩
  · intro m n hm hn h
    have hlines := outlineLines_eq_of_outline h
    rw [← List.append_nil (m.outlineLines 0), ← List.append_nil (n.outlineLines 0)] at hlines
    exact (hm.isReadOff n 0 [] [] hn hlines).1

/-- Missing subtrees of different parents leave the same lines behind one another; the trees are told
apart by what is announced before. -/
theorem outline_tells_missing_subtrees_apart :
    let m : Node := .sequence [.binary .subtract (.number (-5)) .nil, .nil]
    let n : Node := .sequence [.conditional (.number (-5)) .nil .nil]
    m.outline = Text.ofString
      "(sequence)[2]\n    (binary_op): -\n        (number): -5\n:nil\n:nil\n" ∧
      m.outline ≠ n.outline := by
  intro m n
  have hnil : KnowsOperators .nil := .intro (by simp) (by simp [children])
  have hfive : KnowsOperators (.number (-5)) := .intro (by simp) (by simp [children])
  have hdifference : KnowsOperators (.binary .subtract (.number (-5)) .nil) :=
    .intro (by simp +contextual [Operator.isKnown]) (by simp [children, hnil, hfive])
  have hchoice : KnowsOperators (.conditional (.number (-5)) .nil .nil) :=
    .intro (by simp) (by simp [children, hnil, hfive])
  have hm : m.KnowsOperators := .intro (by simp [m]) (by simp [m, children, hdifference, hnil])
  have hn : n.KnowsOperators := .intro (by simp [n]) (by simp [n, children, hchoice])
  have hvisits : m.visits 0 = [(0, m), (1, .binary .subtract (.number (-5)) .nil),
      (2, .number (-5)), (2, .nil), (1, .nil)] := by
    simp [m, visits_eq, children]
  obtain ⟨hlists, hdetermines⟩ := outline_lists_and_determines
  have hm' := (hlists m).1
  rw [hvisits] at hm'
  refine ⟨hm'.trans (by decide), ?_⟩
  intro h
  exact absurd (hdetermines m n hm hn h) (by simp [m, n])

end Determined

end Node

end TinyLisp

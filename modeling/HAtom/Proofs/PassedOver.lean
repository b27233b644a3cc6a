import HAtom.Proofs.Walk

/-!
# Walks that pass over nodes

Whoever moves a cursor may decide after every node it meets that the next move passes over what lies
below that node. The decision can depend on all nodes met so far. Whatever is decided, the walk
meets the nodes below the scope that lie inside no node passed over, in document order and each of
them once, and after that it answers nothing any more.

* `Cursor.answer`: the answers of a walk under a rule that decides.
* `Forest.met`: what a recursion meets under the same rule (`Cursor.answer_eq`).
* `PassesOver`: the rule decided at a node that what lies below is passed over.
* `Forest.Distinct.mem_met`: which nodes are met.
* `Cursor.exists_meets`: the whole walk, with `Cursor.Meets` for what is true of it.
-/

namespace HAtom.Markup

variable (rule : List Tree → Tree → Bool)

/-! ## Walks under a rule -/

/-- The answer to a move after a number of other moves. When a move meets a node the rule decides,
from the nodes met before it and the node, whether the next move passes over what lies below. -/
def Cursor.answer : Nat → Cursor → List Tree → Option Tree
  | 0, c, _ => c.next.1
  | moves + 1, c, earlier =>
    match c.next with
    | (none, c) => answer moves c earlier
    | (some t, c) => answer moves (if rule earlier t then c.skipChildren else c) (earlier ++ [t])

/-- The nodes of a forest that are met after some earlier nodes. -/
def Forest.met : Forest → List Tree → List Tree
  | .nil, _ => []
  | .node n below after, earlier =>
    let inside := if rule earlier ⟨n, below⟩ then [] else met below (earlier ++ [⟨n, below⟩])
    ⟨n, below⟩ :: (inside ++ met after (earlier ++ [⟨n, below⟩] ++ inside))

/-- The nodes below a node that are met after some earlier nodes and the node. -/
def Forest.metBelow (n : Node) (below : Forest) (earlier : List Tree) : List Tree :=
  if rule earlier ⟨n, below⟩ then [] else below.met rule (earlier ++ [⟨n, below⟩])

/-- At the node `a`, one of the nodes that were met after some earlier ones, the rule decided that
what lies below is passed over. -/
def PassesOver (earlier met : List Tree) (a : Tree) : Prop :=
  ∃ before after, met = before ++ a :: after ∧ rule (earlier ++ before) a = true

variable {rule} {earlier : List Tree}

namespace Forest

variable {n : Node} {below after : Forest}

@[simp] theorem met_nil : (nil : Forest).met rule earlier = [] := rfl

theorem met_node (n : Node) (below after : Forest) (earlier : List Tree) :
    (node n below after).met rule earlier = ⟨n, below⟩ :: (metBelow rule n below earlier ++
      after.met rule (earlier ++ [⟨n, below⟩] ++ metBelow rule n below earlier)) := rfl

theorem metBelow_of_skip (h : rule earlier ⟨n, below⟩ = true) :
    metBelow rule n below earlier = [] :=
  if_pos h

theorem metBelow_of_enter (h : rule earlier ⟨n, below⟩ = false) :
    metBelow rule n below earlier = below.met rule (earlier ++ [⟨n, below⟩]) := by
  rw [metBelow, h, if_neg Bool.false_ne_true]

theorem met_append (f g : Forest) (earlier : List Tree) :
    (f.append g).met rule earlier =
      f.met rule earlier ++ g.met rule (earlier ++ f.met rule earlier) := by
  induction f generalizing earlier with
  | nil => simp [append]
  | node n below after _ iha =>
    rw [append, met_node, met_node, iha]
    simp

theorem met_sublist (f : Forest) (earlier : List Tree) :
    (f.met rule earlier).Sublist f.trees := by
  induction f generalizing earlier with
  | nil => exact List.Sublist.slnil
  | node n below after ihb iha =>
    rw [trees_node, met_node]
    refine (List.Sublist.append ?_ (iha _)).cons_cons _
    unfold metBelow
    split
    · exact List.nil_sublist _
    · exact ihb _

theorem mem_trees_of_mem_metBelow {t : Tree} (h : t ∈ metBelow rule n below earlier) :
    t ∈ below.trees := by
  unfold metBelow at h
  split at h
  · cases h
  · exact (met_sublist _ _).subset h

theorem mem_trees_of_mem_met {f : Forest} {t : Tree} (h : t ∈ f.met rule earlier) : t ∈ f.trees :=
  (met_sublist f earlier).subset h

end Forest

namespace Cursor

theorem over_of_next_eq_none {c c' : Cursor} (h : c.next = (none, c')) :
    (c'.detached || c'.finished) = true := by
  cases hover : c.detached || c.finished with
  | true =>
    rw [next, if_pos hover] at h
    cases h
    exact hover
  | false =>
    obtain ⟨hdetached, hfinished⟩ := Bool.or_eq_false_iff.1 hover
    rw [next_eq ⟨hdetached, hfinished⟩] at h
    cases htarget : c.target with
    | none =>
      rw [htarget] at h
      cases h
      simp
    | some s => simp [htarget] at h

/-- A walk that is over stays over. -/
theorem answer_of_over {c : Cursor} (h : (c.detached || c.finished) = true) (moves : Nat)
    (earlier : List Tree) : c.answer rule moves earlier = none := by
  have hnext : c.next = (none, c) := by rw [next, if_pos h]
  induction moves with
  | zero => rw [answer, hnext]
  | succ moves ih =>
    rw [answer, hnext]
    exact ih

/-- **A walk answers the nodes that are met in front of the cursor**, one with every move, and
nothing after the last one. -/
theorem answer_eq {c : Cursor} (h : c.Live) (moves : Nat) (earlier : List Tree) :
    c.answer rule moves earlier = (c.ahead.met rule earlier)[moves]? := by
  induction moves generalizing c earlier with
  | zero =>
    rw [answer]
    rcases next_of_live h with ⟨hnil, c', hnext⟩ | ⟨n, below, after, c', hnode, hnext, -⟩
    · rw [hnil, hnext]
      rfl
    · rw [hnode, hnext]
      rfl
  | succ moves ih =>
    rw [answer]
    rcases next_of_live h with
      ⟨hnil, c', hnext⟩ | ⟨n, below, after, c', hnode, hnext, hlive, hdown, hlive', hover⟩
    · rw [hnil, hnext]
      exact answer_of_over (over_of_next_eq_none hnext) moves earlier
    · rw [hnode, hnext]
      dsimp only
      rw [Forest.met_node, List.getElem?_cons_succ]
      cases hrule : rule earlier ⟨n, below⟩ with
      | true =>
        rw [if_pos rfl, ih hlive', hover, Forest.metBelow_of_skip hrule, List.nil_append,
          List.append_nil]
      | false =>
        rw [if_neg Bool.false_ne_true, ih hlive, hdown, Forest.met_append,
          Forest.metBelow_of_enter hrule]

end Cursor

/-! ## What is passed over -/

section PassesOver

variable {met : List Tree} {a t : Tree}

theorem PassesOver.mem (h : PassesOver rule earlier met a) : a ∈ met := by
  obtain ⟨before, after, rfl, -⟩ := h
  simp

theorem passesOver_cons :
    PassesOver rule earlier (t :: met) a ↔
      (a = t ∧ rule earlier t = true) ∨ PassesOver rule (earlier ++ [t]) met a := by
  constructor
  · rintro ⟨before, after, hmet, hrule⟩
    cases before with
    | nil =>
      rw [List.nil_append, List.cons.injEq] at hmet
      rw [List.append_nil, ← hmet.1] at hrule
      exact .inl ⟨hmet.1.symm, hrule⟩
    | cons s before =>
      rw [List.cons_append, List.cons.injEq] at hmet
      obtain ⟨rfl, rfl⟩ := hmet
      exact .inr ⟨before, after, rfl, by simpa using hrule⟩
  · rintro (⟨rfl, hrule⟩ | ⟨before, after, rfl, hrule⟩)
    · exact ⟨[], met, rfl, by simpa using hrule⟩
    · exact ⟨t :: before, after, rfl, by simpa using hrule⟩

theorem passesOver_append {met' : List Tree} :
    PassesOver rule earlier (met ++ met') a ↔
      PassesOver rule earlier met a ∨ PassesOver rule (earlier ++ met) met' a := by
  induction met generalizing earlier with
  | nil =>
    have hnone : ¬ PassesOver rule earlier [] a := fun h => nomatch h.mem
    simp [hnone]
  | cons t met ih => simp [passesOver_cons, ih, or_assoc]

end PassesOver

/-! ## Which nodes are met -/

namespace Forest

variable {n : Node} {below after : Forest} {t : Tree}

/-- A node of the first part is met when it is met there. -/
theorem Distinct.mem_met_below (hd : (node n below after).Distinct) (ht : t ∈ below.trees) :
    t ∈ (node n below after).met rule earlier ↔ t ∈ metBelow rule n below earlier := by
  have hfirst : t ≠ ⟨n, below⟩ := by
    rintro rfl
    exact Tree.not_mem_below _ ht
  have hafter : t ∉ after.met rule (earlier ++ [⟨n, below⟩] ++ metBelow rule n below earlier) :=
    fun h => hd.not_mem_all (mem_trees_of_mem_met h) ht (by simp)
  rw [met_node, List.mem_cons, List.mem_append, or_iff_right hfirst, or_iff_left hafter]

/-- A node of the second part is met when it is met there. -/
theorem Distinct.mem_met_after (hd : (node n below after).Distinct) (ht : t ∈ after.trees) :
    t ∈ (node n below after).met rule earlier ↔
      t ∈ after.met rule (earlier ++ [⟨n, below⟩] ++ metBelow rule n below earlier) := by
  have hfirst : t ≠ ⟨n, below⟩ := by
    rintro rfl
    exact hd.not_mem_all_head ht (by simp)
  have hbelow : t ∉ metBelow rule n below earlier :=
    fun h => hd.not_mem_all' (mem_trees_of_mem_metBelow h) ht (by simp)
  rw [met_node, List.mem_cons, List.mem_append, or_iff_right hfirst, or_iff_right hbelow]

/-- What is passed over in the first part is passed over there. -/
theorem Distinct.passesOver_below (hd : (node n below after).Distinct) (ht : t ∈ below.trees) :
    PassesOver rule earlier ((node n below after).met rule earlier) t ↔
      PassesOver rule (earlier ++ [⟨n, below⟩]) (metBelow rule n below earlier) t := by
  rw [met_node, passesOver_cons, passesOver_append]
  refine ⟨?_, fun h => .inr (.inl h)⟩
  rintro (⟨rfl, -⟩ | h | h)
  · exact absurd ht (Tree.not_mem_below _)
  · exact h
  · exact absurd (by simp) (hd.not_mem_all (mem_trees_of_mem_met h.mem) ht)

/-- What is passed over in the second part is passed over there. -/
theorem Distinct.passesOver_after (hd : (node n below after).Distinct) (ht : t ∈ after.trees) :
    PassesOver rule earlier ((node n below after).met rule earlier) t ↔
      PassesOver rule (earlier ++ [⟨n, below⟩] ++ metBelow rule n below earlier)
        (after.met rule (earlier ++ [⟨n, below⟩] ++ metBelow rule n below earlier)) t := by
  rw [met_node, passesOver_cons, passesOver_append]
  refine ⟨?_, fun h => .inr (.inr h)⟩
  rintro (⟨rfl, -⟩ | h | h)
  · exact absurd (by simp) (hd.not_mem_all_head ht)
  · exact absurd (by simp) (hd.not_mem_all' (mem_trees_of_mem_metBelow h.mem) ht)
  · exact h

/-- What lies below the first node is passed over when the rule says so there. -/
theorem Distinct.passesOver_head (hd : (node n below after).Distinct) :
    PassesOver rule earlier ((node n below after).met rule earlier) ⟨n, below⟩ ↔
      rule earlier ⟨n, below⟩ = true := by
  rw [met_node, passesOver_cons, passesOver_append]
  refine ⟨?_, fun h => .inl ⟨rfl, h⟩⟩
  rintro (⟨-, h⟩ | h | h)
  · exact h
  · exact absurd (mem_trees_of_mem_metBelow h.mem) (Tree.not_mem_below _)
  · exact absurd (by simp) (hd.not_mem_all_head (mem_trees_of_mem_met h.mem))

/-- **The nodes that are met are those inside no node passed over.** -/
theorem Distinct.mem_met {f : Forest} (hd : f.Distinct) (earlier : List Tree) :
    t ∈ f.met rule earlier ↔ t ∈ f.trees ∧
      ∀ a ∈ f.trees, t ∈ a.all → t ≠ a → ¬ PassesOver rule earlier (f.met rule earlier) a := by
  induction f generalizing earlier with
  | nil => simp
  | node n below after ihb iha =>
    obtain ⟨-, hdb, hda, -⟩ := distinct_node.1 hd
    by_cases ht : t ∈ (node n below after).trees
    · rw [and_iff_right ht]
      rcases mem_trees_node.1 ht with rfl | ht | ht
      · -- nothing else is at or above the first node
        rw [hd.forall_above_head, met_node]
        simp
      · have hne : t ≠ ⟨n, below⟩ := by
          rintro rfl
          exact Tree.not_mem_below _ ht
        rw [hd.forall_above_below ht, hd.mem_met_below ht, hd.passesOver_head]
        cases hrule : rule earlier ⟨n, below⟩ with
        | true => simp [metBelow_of_skip hrule, hne]
        | false =>
          rw [metBelow_of_enter hrule, ihb hdb, and_iff_right ht, and_iff_right (by simp)]
          refine forall₂_congr fun a ha => imp_congr_right fun _ => imp_congr_right fun _ => ?_
          rw [hd.passesOver_below ha, metBelow_of_enter hrule]
      · rw [hd.forall_above_after ht, hd.mem_met_after ht, iha hda, and_iff_right ht]
        refine forall₂_congr fun a ha => imp_congr_right fun _ => imp_congr_right fun _ => ?_
        rw [hd.passesOver_after ha]
    · exact iff_of_false (fun h => ht (mem_trees_of_mem_met h)) fun h => ht h.1

end Forest

/-! ## Whole walks -/

namespace Cursor

/-- What a walk below a scope does under a rule: it meets these nodes, one with every move. -/
structure Meets (scope : Tree) (rule : List Tree → Tree → Bool) (met : List Tree) : Prop where
  /-- Each move answers the next of the nodes, and a move after the last of them answers nothing. -/
  answers : ∀ moves, (start scope).answer rule moves [] = met[moves]?
  /-- The nodes come in document order. -/
  inOrder : met.Sublist scope.below.trees
  once : met.Nodup
  /-- They are the nodes below the scope that lie inside no node passed over. -/
  mem_iff : ∀ t, t ∈ met ↔ t ∈ scope.below.trees ∧
    ∀ a ∈ scope.below.trees, t ∈ a.below.trees → ¬ PassesOver rule [] met a
  /-- The first move that answers nothing comes after no more moves than there are nodes below the
  scope. -/
  ends : ∃ moves ≤ scope.below.trees.length,
    (∀ i < moves, (start scope).answer rule i [] ≠ none) ∧
      ∀ i ≥ moves, (start scope).answer rule i [] = none

/-- **A walk under any rule meets the nodes inside no node passed over**, in document order and each
of them once. After at most as many moves as there are nodes below the scope it answers nothing, and
nothing ever after. -/
theorem exists_meets (scope : Tree) (hd : scope.below.Distinct) (rule : List Tree → Tree → Bool) :
    ∃ met, Meets scope rule met := by
  have hanswers (moves : Nat) : (start scope).answer rule moves [] =
      (scope.below.met rule [])[moves]? := answer_eq (live_start scope) moves []
  have horder : (scope.below.met rule []).Sublist scope.below.trees := scope.below.met_sublist []
  refine ⟨scope.below.met rule [], hanswers, horder, horder.nodup hd.trees_nodup, fun t => ?_,
    (scope.below.met rule []).length, horder.length_le, fun i hi => ?_, fun i hi => ?_⟩
  · rw [hd.mem_met]
    refine and_congr_right fun _ => forall₂_congr fun a ha => ?_
    constructor
    · exact fun h hta => h (by simp [hta]) fun heq => a.not_mem_below (heq ▸ hta)
    · exact fun h hta hne => h ((Tree.mem_all.1 hta).resolve_left hne)
  · rw [hanswers, List.getElem?_eq_getElem hi]
    exact Option.some_ne_none _
  · rw [hanswers, List.getElem?_eq_none hi]

/-- Five nodes below a scope: one with a chain of two below it, and one with one below it. -/
def fiveNodes : Tree :=
  let element (label : Nat) : Node := ⟨label, .element "b" [], ⟨1, 1⟩⟩
  ⟨element 0, .node (element 1) (.node (element 2) (.node (element 3) .nil .nil) .nil)
    (.node (element 4) (.node (element 5) .nil .nil) .nil)⟩

/-- A rule that depends on how many nodes were met: what lies below the first of them is passed
over, and what lies below the second is not. -/
theorem exists_meets_fiveNodes :
    fiveNodes.below.Distinct ∧ (∃ met, Meets fiveNodes (fun earlier _ => earlier.isEmpty) met) ∧
      (List.range 5).map (fun moves =>
          ((start fiveNodes).answer (fun earlier _ => earlier.isEmpty) moves []).map
            (·.head.label)) =
        [some 1, some 4, some 5, none, none] := by
  have hd : fiveNodes.below.Distinct := by
    show List.Nodup _
    decide
  exact ⟨hd, exists_meets fiveNodes hd _, by decide⟩

end Cursor

end HAtom.Markup

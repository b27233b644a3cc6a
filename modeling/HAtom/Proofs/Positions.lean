import HAtom.Proofs.Walk

/-!
# A cursor is a position in a list

A cursor keeps no list of the nodes below its scope: it finds the next node and the node before
through children, siblings and parents. All the same it answers as a position in that list would,
which begins before the first node, moves by one to the right or to the left, and stays where it is
at both ends.

* `Spot.Below` says that the siblings and levels around a spot are those of a node below the scope,
  and `Spot.before` lists the nodes that come before it there (`Spot.Below.trees_eq`).
* `Spot.Below.child`, `Spot.Below.following` and `Spot.Below.preceding_cases`: where a spot leads.
* `Bookmark` is a position in a list, and `Cursor.Follows` ties a cursor to one. Every call keeps the
  two together and answers the same (`Cursor.Follows.call`).
* `Cursor.answers_eq_bookmark`: so do all calls, one after another, and after `detach` no node is
  answered any more.
-/

namespace HAtom.Markup

namespace Spot

/-! ## The nodes before a spot -/

/-- The siblings `f` together with those before them, the nearest first. -/
def siblings : List Tree → Forest → Forest
  | [], f => f
  | t :: left, f => siblings left (.node t.head t.below f)

/-- Siblings, the nearest first, with all nodes below them, in document order. -/
def passed (left : List Tree) : List Tree := left.reverse.flatMap Tree.all

/-- The nodes of the levels and all before them, in document order. -/
def passedAbove : List Level → List Tree
  | [] => []
  | level :: up => passedAbove up ++ passed level.left ++ [level.tree]

/-- The nodes below the scope that come before the spot, in document order. -/
def before (s : Spot) : List Tree := passedAbove s.up ++ passed s.left

/-- A node among its siblings: those before it, the nearest first, and those after it. -/
def row (left : List Tree) (tree : Tree) (right : Forest) : Forest :=
  siblings left (.node tree.head tree.below right)

/-- The forest is all that lies below the nearest level, and the levels lead up to the scope. -/
def Under (scope : Tree) (f : Forest) : List Level → Prop
  | [] => f = scope.below
  | level :: up => f = level.tree.below ∧ Under scope (row level.left level.tree level.right) up

/-- The spot is a node below the scope, with its siblings and the levels above it. -/
def Below (scope : Tree) (s : Spot) : Prop := Under scope (row s.left s.tree s.right) s.up

theorem passed_cons (t : Tree) (left : List Tree) : passed (t :: left) = passed left ++ t.all := by
  simp [passed]

theorem trees_siblings (left : List Tree) (f : Forest) :
    (siblings left f).trees = passed left ++ f.trees := by
  induction left generalizing f with
  | nil => rfl
  | cons t left ih =>
    rw [siblings, ih, passed_cons, Forest.trees_node, List.append_assoc]
    rfl

theorem trees_onward (f : Forest) (up : List Level) :
    (onward f up).trees = f.trees ++ (onward .nil up).trees := by
  cases up with
  | nil => simp [onward]
  | cons level up => simp [onward, Forest.append]

theorem trees_row (left : List Tree) (tree : Tree) (right : Forest) :
    (row left tree right).trees = passed left ++ tree :: (tree.below.trees ++ right.trees) := by
  rw [row, trees_siblings, Forest.trees_node]

variable {scope : Tree} {s : Spot}

/-- What lies below the scope, cut where the forest begins. -/
theorem Under.trees_eq {f : Forest} {up : List Level} (h : Under scope f up) :
    scope.below.trees = passedAbove up ++ (onward f up).trees := by
  induction up generalizing f with
  | nil =>
    have hf : f = scope.below := h
    rw [hf]
    rfl
  | cons level up ih =>
    obtain ⟨rfl, habove⟩ := h
    rw [ih habove, trees_onward, trees_row]
    simp only [passedAbove, onward, Forest.trees_append, trees_onward level.right,
      List.append_assoc, List.cons_append, List.nil_append]

/-- **What lies below the scope, cut at the spot**: the nodes before it, the spot itself, and what is
in front of a cursor that stands there. -/
theorem Below.trees_eq (h : Below scope s) :
    scope.below.trees = s.before ++ s.tree :: (s.tree.below.append s.after).trees := by
  rw [Under.trees_eq h, trees_onward, trees_row, before, after]
  simp only [Forest.trees_append, trees_onward s.right, List.append_assoc, List.cons_append]

/-! ## Moves between spots -/

theorem Under.first {f : Forest} {up : List Level} (h : Under scope f up) :
    ∀ r ∈ first? up f, Below scope r := by
  intro r hr
  cases f with
  | nil => cases hr
  | node n below after =>
    cases hr
    exact h

/-- The first child of a node below the scope is one, too. -/
theorem Below.child (h : Below scope s) : ∀ r ∈ s.child?, Below scope r := by
  have hbelow : Under scope s.tree.below (⟨s.left, s.tree, s.right⟩ :: s.up) := ⟨rfl, h⟩
  exact hbelow.first

theorem below_afterSubtree {left : List Tree} {tree : Tree} {right : Forest} {up : List Level}
    (h : Under scope (row left tree right) up) :
    ∀ r ∈ afterSubtree left tree right up, Below scope r := by
  induction up generalizing left tree right with
  | nil =>
    intro r hr
    cases right with
    | nil => cases hr
    | node n below after =>
      cases hr
      exact h
  | cons level up ih =>
    cases right with
    | nil =>
      -- the last of its siblings: the walk goes on behind the node above
      exact ih h.2
    | node n below after =>
      intro r hr
      cases hr
      exact h

/-- The node after the subtree of a node below the scope is one, too. -/
theorem Below.following (h : Below scope s) : ∀ r ∈ s.following?, Below scope r :=
  below_afterSubtree h

/-- The last node of a forest has nothing below it, and what comes after it comes after the
forest. -/
theorem Under.last_cases {left : List Tree} {f : Forest} {up : List Level}
    (h : Under scope (siblings left f) up) :
    (f = .nil ∧ last? left up f = none) ∨
      ∃ r, last? left up f = some r ∧ Below scope r ∧ r.tree.below = .nil ∧
        r.after = onward .nil up := by
  induction f generalizing left up with
  | nil => exact .inl ⟨rfl, rfl⟩
  | node n below after ihb iha =>
    right
    rw [last?]
    have hafter : Under scope (siblings (⟨n, below⟩ :: left) after) up := h
    rcases iha hafter with ⟨rfl, hnone⟩ | ⟨r, hr, hlast⟩
    · rw [hnone]
      have hbelow : Under scope (siblings [] below) (⟨left, ⟨n, below⟩, .nil⟩ :: up) := ⟨rfl, h⟩
      rcases ihb hbelow with ⟨rfl, hnone⟩ | ⟨r, hr, hlast⟩
      · rw [hnone]
        exact ⟨_, rfl, h, rfl, rfl⟩
      · rw [hr]
        exact ⟨r, rfl, hlast⟩
    · rw [hr]
      exact ⟨r, rfl, hlast⟩

/-- **One move back** leads to the node that comes right before, and to none only from the first
node below the scope. -/
theorem Below.preceding_cases (h : Below scope s) :
    (s.preceding? = none ∧ s.before = []) ∨
      ∃ r, s.preceding? = some r ∧ Below scope r ∧
        r.tree.below.append r.after = .node s.tree.head s.tree.below s.after := by
  obtain ⟨left, tree, right, up⟩ := s
  cases left with
  | cons t more =>
    -- the last node at or below the sibling before
    right
    have hbelow : Under scope (siblings [] t.below)
        (⟨more, t, .node tree.head tree.below right⟩ :: up) := ⟨rfl, h⟩
    have hafter : onward (.node tree.head tree.below right) up =
        .node tree.head tree.below (onward right up) := onward_node ..
    rw [preceding?]
    dsimp only
    rcases hbelow.last_cases with ⟨hnil, hnone⟩ | ⟨r, hr, hlast, hnil, hrest⟩
    · refine ⟨⟨more, t, .node tree.head tree.below right, up⟩, by rw [hnone], h, ?_⟩
      rw [hnil]
      exact hafter
    · refine ⟨r, by rw [hr], hlast, ?_⟩
      rw [hnil, hrest]
      exact hafter
  | nil =>
    cases up with
    | nil => exact .inl ⟨rfl, rfl⟩
    | cons level up =>
      -- the first of its siblings: the node above comes right before
      right
      obtain ⟨hbelow, habove⟩ := h
      refine ⟨⟨level.left, level.tree, level.right, up⟩, rfl, habove, ?_⟩
      rw [← hbelow]
      rfl

end Spot

/-! ## Calls and their answers -/

/-- What a cursor can be asked. -/
inductive Call
  | next
  | previous
  | reset
  | detach
  deriving DecidableEq, Repr

section Calls

variable {σ α : Type} (call : σ → Call → Option α × σ)

/-- The answers to calls made one after another. -/
def answersOf : σ → List Call → List (Option α)
  | _, [] => []
  | s, k :: rest => (call s k).1 :: answersOf (call s k).2 rest

theorem answersOf_append (s : σ) (calls more : List Call) :
    answersOf call s (calls ++ more) =
      answersOf call s calls ++ answersOf call (calls.foldl (fun s k => (call s k).2) s) more := by
  induction calls generalizing s with
  | nil => rfl
  | cons k calls ih => simp only [List.cons_append, answersOf, ih, List.foldl_cons]

end Calls

/-! ## Positions in a list -/

/-- A position in a list: `0` is before the first item, `i + 1` is at item `i`, counted from zero,
and one more than the number of items is behind the last one. -/
structure Bookmark (α : Type) where
  items : List α
  position : Nat
  position_le : position ≤ items.length + 1
  /-- Whether no item is answered any more. -/
  closed : Bool

namespace Bookmark

variable {α : Type}

/-- The position before the first item. -/
def start (items : List α) : Bookmark α := ⟨items, 0, Nat.zero_le _, false⟩

/-- The item at the position; there is none at either end. -/
def item? (r : Bookmark α) : Option α :=
  match r.position with
  | 0 => none
  | i + 1 => r.items[i]?

/-- One to the right, unless the position is behind the last item. -/
def right (r : Bookmark α) : Bookmark α :=
  { r with
    position := min (r.position + 1) (r.items.length + 1)
    position_le := Nat.min_le_right .. }

/-- One to the left, unless the position is before the first item. -/
def left (r : Bookmark α) : Bookmark α :=
  { r with
    position := r.position - 1
    position_le := (Nat.sub_le ..).trans r.position_le }

/-- Back to the position before the first item. -/
def front (r : Bookmark α) : Bookmark α := { r with position := 0, position_le := Nat.zero_le _ }

/-- The item that is answered. -/
def answer (r : Bookmark α) : Option α := if r.closed then none else r.item?

/-- A call: a move answers the item where it leads. -/
def call (r : Bookmark α) : Call → Option α × Bookmark α
  | .next => (r.right.answer, r.right)
  | .previous => (r.left.answer, r.left)
  | .reset => (none, r.front)
  | .detach => (none, { r with closed := true })

/-- The answers to calls made one after another. -/
def answers (r : Bookmark α) : List Call → List (Option α) := answersOf call r

end Bookmark

/-! ## Cursors at positions -/

namespace Cursor

/-- A call of a cursor. -/
def call (c : Cursor) : Call → Option Tree × Cursor
  | .next => c.next
  | .previous => c.previous
  | .reset => (none, c.reset)
  | .detach => (none, c.detach)

/-- The answers of a cursor to calls made one after another. -/
def answers (c : Cursor) : List Call → List (Option Tree) := answersOf call c

/-- Where a cursor with this spot stands among the nodes below the scope. Behind the last node it
still has the spot of that node. -/
inductive StandsAt (scope : Tree) : Option Spot → Bool → Nat → Prop
  | front : StandsAt scope none false 0
  | node {s : Spot} : s.Below scope → StandsAt scope (some s) false (s.before.length + 1)
  | behind {spot : Option Spot} : StandsAt scope spot false scope.below.trees.length →
    StandsAt scope spot true (scope.below.trees.length + 1)

/-- The cursor stands at the position, and none of its calls skipped children. -/
structure Follows (c : Cursor) (r : Bookmark Tree) : Prop where
  items : r.items = c.scope.below.trees
  closed : r.closed = c.detached
  skipping : c.skipping = false
  stands : c.detached = false → StandsAt c.scope c.spot c.finished r.position

/-- The node that a cursor shows. -/
def shown (c : Cursor) : Option Tree :=
  if c.detached || c.finished then none else c.spot.map (·.tree)

theorem next_of_over {c : Cursor} (h : (c.detached || c.finished) = true) : c.next = (none, c) := by
  rw [next, if_pos h]

theorem next_fst (c : Cursor) : c.next.1 = c.next.2.shown := by
  cases hover : c.detached || c.finished with
  | true => rw [next_of_over hover, shown, if_pos hover]
  | false =>
    obtain ⟨hdetached, hfinished⟩ := Bool.or_eq_false_iff.1 hover
    rw [next_eq ⟨hdetached, hfinished⟩]
    cases c.target with
    | none => simp [shown]
    | some s => simp [shown, hdetached, hfinished]

theorem previous_fst (c : Cursor) : c.previous.1 = c.previous.2.shown := by
  unfold previous shown
  cases hdetached : c.detached <;> cases hfinished : c.finished <;> simp [hdetached, hfinished]

theorem StandsAt.item?_eq {r : Bookmark Tree} {scope : Tree} {spot : Option Spot} {finished : Bool}
    (hitems : r.items = scope.below.trees) (h : StandsAt scope spot finished r.position) :
    r.item? = if finished then none else spot.map (·.tree) := by
  obtain ⟨items, position, hle, closed⟩ := r
  dsimp only at h hitems
  subst hitems
  cases h with
  | front => rfl
  | @node s hbelow =>
    show scope.below.trees[s.before.length]? = some s.tree
    rw [hbelow.trees_eq]
    simp
  | behind h =>
    show scope.below.trees[scope.below.trees.length]? = none
    simp

theorem StandsAt.of_finished {scope : Tree} {spot : Option Spot} {i : Nat}
    (h : StandsAt scope spot true i) : i = scope.below.trees.length + 1 ∧
      StandsAt scope spot false scope.below.trees.length := by
  cases h with
  | behind hlast => exact ⟨rfl, hlast⟩

/-- A cursor answers the item at its position. -/
theorem Follows.shown_eq {c : Cursor} {r : Bookmark Tree} (h : c.Follows r) :
    c.shown = r.answer := by
  unfold shown Bookmark.answer
  rw [h.closed]
  cases hdetached : c.detached with
  | true => rfl
  | false =>
    have hitem := (h.stands hdetached).item?_eq h.items
    simpa using hitem.symm

/-! ## Every call keeps the position -/

section Moves

variable {c : Cursor} {i : Nat}

/-- What is in front of a cursor is the list without what is to the left of its position. -/
theorem StandsAt.exists_ahead (hskipping : c.skipping = false)
    (h : StandsAt c.scope c.spot false i) :
    ∃ passed, passed.length = i ∧ c.scope.below.trees = passed ++ c.ahead.trees := by
  unfold ahead
  generalize c.spot = spot at h
  cases h with
  | front => exact ⟨[], rfl, rfl⟩
  | @node s hbelow =>
    refine ⟨s.before ++ [s.tree], by simp, ?_⟩
    rw [hbelow.trees_eq]
    simp [hskipping]

theorem StandsAt.below_target (h : StandsAt c.scope c.spot false i) (hskipping : c.skipping = false) :
    ∀ s ∈ c.target, s.Below c.scope := by
  unfold target
  generalize c.spot = spot at h
  intro s hs
  cases h with
  | front =>
    have hscope : Spot.Under c.scope c.scope.below [] := rfl
    exact hscope.first s hs
  | @node t hbelow =>
    rw [hskipping] at hs
    rcases Option.or_eq_some_iff.1 hs with hs | ⟨-, hs⟩
    · exact hbelow.child s hs
    · exact hbelow.following s hs

/-- Where the next move leads: to the node right after the position, or to none when it is at the
end of the list. -/
theorem StandsAt.target_cases (hskipping : c.skipping = false)
    (h : StandsAt c.scope c.spot false i) :
    (c.target = none ∧ i = c.scope.below.trees.length) ∨
      ∃ s, c.target = some s ∧ s.Below c.scope ∧ s.before.length = i ∧
        i < c.scope.below.trees.length := by
  obtain ⟨passed, hlength, htrees⟩ := h.exists_ahead hskipping
  have hbelow := h.below_target hskipping
  have hreaches := c.reaches_target
  generalize c.target = target at hreaches hbelow
  generalize c.ahead = ahead at hreaches htrees
  cases hreaches with
  | nothing =>
    left
    refine ⟨rfl, ?_⟩
    simp [htrees, hlength]
  | first s =>
    right
    have hs : s.Below c.scope := hbelow s rfl
    -- both ways of cutting the list have the same nodes behind `s`
    have hcut := congrArg List.length (hs.trees_eq.symm.trans htrees)
    have hall := congrArg List.length htrees
    simp only [List.length_append, List.length_cons, Forest.trees_append, Forest.trees_node]
      at hcut hall
    exact ⟨s, rfl, hs, by omega, by omega⟩

theorem StandsAt.previous {scope : Tree} {spot : Option Spot} (h : StandsAt scope spot false i) :
    StandsAt scope (spot.bind Spot.preceding?) false (i - 1) := by
  cases h with
  | front => exact .front
  | @node s hbelow =>
    show StandsAt scope s.preceding? false s.before.length
    rcases hbelow.preceding_cases with ⟨hnone, hnil⟩ | ⟨r, hr, hbelow', hnext⟩
    · rw [hnone, hnil]
      exact .front
    · have hlist := hbelow'.trees_eq
      rw [hnext] at hlist
      have hcut := congrArg List.length (hbelow.trees_eq.symm.trans hlist)
      simp only [List.length_append, List.length_cons, Forest.trees_append, Forest.trees_node]
        at hcut
      have hbefore : s.before.length = r.before.length + 1 := by omega
      rw [hr, hbefore]
      exact .node hbelow'

end Moves

section Calls

variable {c : Cursor} {r : Bookmark Tree}

/-- A cursor that was detached stays where it is, and the position no longer matters. -/
theorem Follows.of_detached (h : c.Follows r) (hdetached : c.detached = true)
    {r' : Bookmark Tree} (hitems : r'.items = r.items) (hclosed : r'.closed = r.closed) :
    c.Follows r' where
  items := hitems.trans h.items
  closed := hclosed.trans h.closed
  skipping := h.skipping
  stands hlive := absurd hlive (by simp [hdetached])

theorem Follows.next (h : c.Follows r) : c.next.2.Follows r.right := by
  cases hdetached : c.detached with
  | true =>
    rw [next_of_over (by simp [hdetached])]
    exact h.of_detached hdetached rfl rfl
  | false =>
    have hstands := h.stands hdetached
    have hright : r.right.position = min (r.position + 1) (c.scope.below.trees.length + 1) := by
      rw [← h.items]
      rfl
    cases hfinished : c.finished with
    | true =>
      rw [next_of_over (by simp [hfinished])]
      refine ⟨h.items, h.closed, h.skipping, fun _ => ?_⟩
      obtain ⟨hend, -⟩ := (hfinished ▸ hstands).of_finished
      have hstays : r.right.position = r.position := by omega
      rw [hstays]
      exact hstands
    | false =>
      rw [hfinished] at hstands
      rw [next_eq ⟨hdetached, hfinished⟩]
      rcases hstands.target_cases h.skipping with ⟨hnone, hi⟩ | ⟨s, hs, hbelow, hi, hlt⟩
      · have hposition : r.right.position = c.scope.below.trees.length + 1 := by omega
        rw [hnone]
        refine ⟨h.items, h.closed, rfl, fun _ => ?_⟩
        rw [hposition]
        exact .behind (hi ▸ hstands)
      · have hposition : r.right.position = s.before.length + 1 := by omega
        rw [hs]
        refine ⟨h.items, h.closed, rfl, fun _ => ?_⟩
        show StandsAt c.scope (some s) c.finished r.right.position
        rw [hposition, hfinished]
        exact .node hbelow

theorem Follows.previous (h : c.Follows r) : c.previous.2.Follows r.left := by
  cases hdetached : c.detached with
  | true =>
    have hprevious : c.previous.2 = c := by simp [Cursor.previous, hdetached]
    rw [hprevious]
    exact h.of_detached hdetached rfl rfl
  | false =>
    have hstands := h.stands hdetached
    cases hfinished : c.finished with
    | true =>
      have hprevious : c.previous.2 = { c with finished := false } := by
        simp [Cursor.previous, hdetached, hfinished]
      obtain ⟨hend, hlast⟩ := (hfinished ▸ hstands).of_finished
      have hposition : r.left.position = c.scope.below.trees.length := by
        show r.position - 1 = _
        omega
      rw [hprevious]
      refine ⟨h.items, h.closed, h.skipping, fun _ => ?_⟩
      rw [hposition]
      exact hlast
    | false =>
      have hprevious : c.previous.2 =
          { c with spot := c.spot.bind Spot.preceding?, skipping := false } := by
        simp [Cursor.previous, hdetached, hfinished]
      rw [hfinished] at hstands
      rw [hprevious]
      refine ⟨h.items, h.closed, rfl, fun _ => ?_⟩
      show StandsAt c.scope (c.spot.bind Spot.preceding?) c.finished (r.position - 1)
      rw [hfinished]
      exact hstands.previous

/-- **One call**: a cursor at a position answers as the position does, and both stay together. -/
theorem Follows.call (h : c.Follows r) (k : Call) :
    (c.call k).1 = (r.call k).1 ∧ (c.call k).2.Follows (r.call k).2 := by
  cases k with
  | next => exact ⟨(next_fst c).trans h.next.shown_eq, h.next⟩
  | previous => exact ⟨(previous_fst c).trans h.previous.shown_eq, h.previous⟩
  | reset => exact ⟨rfl, h.items, h.closed, rfl, fun _ => .front⟩
  | detach => exact ⟨rfl, h.items, rfl, h.skipping, fun hlive => absurd hlive Bool.true_eq_false.mp⟩

theorem follows_start (scope : Tree) : (start scope).Follows (Bookmark.start scope.below.trees) :=
  ⟨rfl, rfl, rfl, fun _ => .front⟩

theorem Follows.answers_eq (h : c.Follows r) (calls : List Call) :
    c.answers calls = r.answers calls := by
  induction calls generalizing c r with
  | nil => rfl
  | cons k calls ih =>
    obtain ⟨hanswer, hfollows⟩ := h.call k
    exact congrArg₂ List.cons hanswer (ih hfollows)

/-- A cursor that was detached answers no node, whatever it is asked. -/
theorem answers_of_detached (h : c.detached = true) (calls : List Call) :
    c.answers calls = List.replicate calls.length none := by
  induction calls generalizing c with
  | nil => rfl
  | cons k calls ih =>
    have hcall : (c.call k).1 = none ∧ (c.call k).2.detached = true := by
      cases k <;> simp [Cursor.call, Cursor.next, Cursor.previous, reset, detach, h]
    exact congrArg₂ List.cons hcall.1 (ih hcall.2)

end Calls

/-- **A cursor answers as a position in the list** of the nodes below its scope, whatever it is
asked, one call after another. Once it was detached no call is answered with a node any more. -/
theorem answers_eq_bookmark (scope : Tree) :
    (∀ calls : List Call,
      (start scope).answers calls = (Bookmark.start scope.below.trees).answers calls) ∧
      ∀ earlier later : List Call, (start scope).answers (earlier ++ .detach :: later) =
        (start scope).answers earlier ++ List.replicate (later.length + 1) none := by
  refine ⟨(follows_start scope).answers_eq, fun earlier later => ?_⟩
  rw [answers, answersOf_append]
  have hover (c : Cursor) : c.answers (.detach :: later) = List.replicate (later.length + 1) none :=
    congrArg (none :: ·) (answers_of_detached (c := c.detach) rfl later)
  exact congrArg _ (hover _)

end Cursor

end HAtom.Markup

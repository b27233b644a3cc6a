import HAtom.Markup.Cursor
import HAtom.Proofs.Sight

/-!
# What a cursor meets

A cursor finds the next node from where it stands. What is in front of it is a forest all the same:
what lies below its node, unless that is passed over, then the siblings after the node, and those
after each node above it, up to the scope. A move takes the first node off that forest.

* `Spot.after` is what comes after the subtree of a spot, and `Cursor.ahead` what is in front of a
  cursor.
* `Cursor.next_of_live`: one move.
* `Cursor.scan_eq`: a whole walk. It meets what a recursion over the forest meets, whatever is done
  with the nodes, and whichever of them tell the cursor to pass over what lies below.
-/

namespace HAtom.Markup

/-! ## Spots -/

namespace Spot

/-- The siblings `right` below the levels `up`, and after them those after each level. -/
def onward (right : Forest) : List Level → Forest
  | [] => right
  | level :: up => right.append (onward level.right up)

/-- What comes after the subtree of the spot, up to the scope. -/
def after (s : Spot) : Forest := onward s.right s.up

/-- The spot is the first node of the forest, with the rest of the forest after it. -/
inductive Reaches : Option Spot → Forest → Prop
  | nothing : Reaches none .nil
  | first (s : Spot) : Reaches (some s) (.node s.tree.head s.tree.below s.after)

theorem onward_node (n : Node) (below after : Forest) (up : List Level) :
    onward (.node n below after) up = .node n below (onward after up) := by
  cases up <;> rfl

theorem reaches_afterSubtree (left : List Tree) (tree : Tree) (right : Forest) (up : List Level) :
    Reaches (afterSubtree left tree right up) (onward right up) := by
  induction up generalizing left tree right with
  | nil =>
    cases right with
    | nil => exact .nothing
    | node n below after => exact .first _
  | cons level up ih =>
    cases right with
    | nil => exact ih level.left level.tree level.right
    | node n below after =>
      rw [onward_node]
      exact .first _

theorem reaches_following (s : Spot) : Reaches s.following? s.after :=
  reaches_afterSubtree s.left s.tree s.right s.up

/-- The node after a node is the first one below it, or else the one after its subtree. -/
theorem reaches_child (s : Spot) :
    Reaches (s.child?.or s.following?) (s.tree.below.append s.after) := by
  unfold child?
  cases s.tree.below with
  | nil => exact s.reaches_following
  | node n below after => exact .first _

end Spot

/-! ## Cursors -/

namespace Cursor

/-- The cursor still moves. -/
structure Live (c : Cursor) : Prop where
  detached : c.detached = false
  finished : c.finished = false

/-- What is in front of a cursor that still moves. -/
def ahead (c : Cursor) : Forest :=
  match c.spot with
  | none => c.scope.below
  | some s => if c.skipping then s.after else s.tree.below.append s.after

theorem live_start (scope : Tree) : (start scope).Live := ⟨rfl, rfl⟩

@[simp] theorem ahead_start (scope : Tree) : (start scope).ahead = scope.below := rfl

/-- Where the next move leads. -/
def target (c : Cursor) : Option Spot :=
  match c.spot with
  | none => Spot.first? [] c.scope.below
  | some s => if c.skipping then s.following? else s.child?.or s.following?

theorem reaches_target (c : Cursor) : Spot.Reaches c.target c.ahead := by
  unfold target ahead
  cases c.spot with
  | none =>
    dsimp only
    cases c.scope.below with
    | nil => exact .nothing
    | node n below after => exact .first _
  | some s =>
    dsimp only
    cases c.skipping
    · exact s.reaches_child
    · exact s.reaches_following

theorem next_eq {c : Cursor} (h : c.Live) : c.next =
    match c.target with
    | some s => (some s.tree, { c with spot := some s, skipping := false })
    | none => (none, { c with skipping := false, finished := true }) := by
  rw [next, h.detached, h.finished]
  rfl

/-- **One move** takes the first node off what is in front of the cursor. What lies below that node
is in front then, unless the cursor is told to pass over it. -/
theorem next_of_live {c : Cursor} (h : c.Live) :
    (c.ahead = .nil ∧ ∃ c', c.next = (none, c')) ∨
      ∃ n below after c', c.ahead = .node n below after ∧ c.next = (some ⟨n, below⟩, c') ∧
        c'.Live ∧ c'.ahead = below.append after ∧
        c'.skipChildren.Live ∧ c'.skipChildren.ahead = after := by
  rw [next_eq h]
  generalize hahead : c.ahead = f
  have htarget := c.reaches_target
  rw [hahead] at htarget
  cases htarget' : c.target with
  | none =>
    rw [htarget'] at htarget
    cases htarget
    exact .inl ⟨rfl, _, rfl⟩
  | some s =>
    rw [htarget'] at htarget
    cases htarget
    exact .inr ⟨_, _, _, _, rfl, rfl, ⟨h.detached, h.finished⟩, rfl, ⟨h.detached, h.finished⟩, rfl⟩

end Cursor

/-! ## Whole walks -/

theorem Forest.size_append (f g : Forest) : (f.append g).size = f.size + g.size := by
  induction f with
  | nil => exact (Nat.zero_add _).symm
  | node n below after _ iha =>
    simp only [append, size, iha]
    omega

variable {σ : Type} (visit : σ → Tree → Bool × σ)

/-- Moves on until nothing is left or the bound on moves is reached. The visit of a node changes a
state, and tells whether what lies below the node is passed over. -/
def Cursor.scan : Nat → Cursor → σ → σ
  | 0, _, state => state
  | moves + 1, c, state =>
    match c.next with
    | (none, _) => state
    | (some t, c) =>
      let (skip, state) := visit state t
      scan moves (if skip then c.skipChildren else c) state

/-- Visits the nodes of a forest in document order. The visit of a node tells whether those below it
are passed over. -/
def Forest.scan : Forest → σ → σ
  | .nil, state => state
  | .node n below after, state =>
    let (skip, state) := visit state ⟨n, below⟩
    scan after (if skip then state else scan below state)

section Scan

variable {visit} {n : Node} {below after : Forest} {state state' : σ}

theorem Forest.scan_of_skip (h : visit state ⟨n, below⟩ = (true, state')) :
    (node n below after).scan visit state = after.scan visit state' := by
  rw [scan, h]
  rfl

theorem Forest.scan_of_enter (h : visit state ⟨n, below⟩ = (false, state')) :
    (node n below after).scan visit state = after.scan visit (below.scan visit state') := by
  rw [scan, h]
  rfl

end Scan

theorem Forest.scan_append (f g : Forest) (state : σ) :
    (f.append g).scan visit state = g.scan visit (f.scan visit state) := by
  induction f generalizing state with
  | nil => rfl
  | node n below after _ iha => exact iha _

/-- **A walk visits the nodes in front of the cursor** that are not passed over, each of them once. -/
theorem Cursor.scan_eq {c : Cursor} (h : c.Live) {moves : Nat} (hmoves : c.ahead.size < moves)
    (state : σ) : c.scan visit moves state = c.ahead.scan visit state := by
  induction moves generalizing c state with
  | zero => exact absurd hmoves (Nat.not_lt_zero _)
  | succ moves ih =>
    rcases next_of_live h with
      ⟨hnil, c', hnext⟩ | ⟨n, below, after, c', hnode, hnext, hlive, hdown, hlive', hover⟩
    · rw [hnil, scan, hnext]
      rfl
    · have hsize : below.size + after.size < moves := by
        rw [hnode, Forest.size] at hmoves
        omega
      rw [hnode, scan, hnext, Forest.scan]
      dsimp only
      cases (visit state ⟨n, below⟩).1 with
      | true =>
        have hafter := ih hlive' (by rw [hover]; omega) (visit state ⟨n, below⟩).2
        rw [hover] at hafter
        exact hafter
      | false =>
        have hboth := ih hlive (by rw [hdown, Forest.size_append]; exact hsize)
          (visit state ⟨n, below⟩).2
        rw [hdown, Forest.scan_append] at hboth
        exact hboth

end HAtom.Markup

import HAtom.Markup.Tree

/-!
# Walking a document

A cursor walks the nodes below a node, its scope, in document order and back. It stores no list of
them: the next node and the one before are found from where the cursor stands, through children,
siblings and parents.

* `Spot` is a node below the scope together with everything around it up to the scope.
* `Cursor.next` and `Cursor.previous` move by one node. In front of the first node a cursor stands on
  nothing; behind the last one it is `finished` and remembers that node.
* `Cursor.skipChildren` makes the next move pass over what lies below the current node.
-/

namespace HAtom.Markup

/-- A node on the way from the scope to a spot, with its siblings. -/
structure Level where
  /-- The siblings before, the nearest first. -/
  left : List Tree
  tree : Tree
  /-- The siblings after. -/
  right : Forest
  deriving DecidableEq, Repr

/-- A node below the scope of a cursor, with its siblings and the levels above, the nearest
first. -/
structure Spot where
  left : List Tree
  tree : Tree
  right : Forest
  up : List Level
  deriving DecidableEq, Repr

namespace Spot

/-- The first of some siblings below the levels `up`. -/
def first? (up : List Level) : Forest → Option Spot
  | .nil => none
  | .node n below after => some ⟨[], ⟨n, below⟩, after, up⟩

/-- The first child. -/
def child? (s : Spot) : Option Spot := first? (⟨s.left, s.tree, s.right⟩ :: s.up) s.tree.below

/-- The node after the subtree of a node that has these siblings and levels above. -/
def afterSubtree (left : List Tree) (tree : Tree) : Forest → List Level → Option Spot
  | .node n below after, up => some ⟨tree :: left, ⟨n, below⟩, after, up⟩
  | .nil, [] => none
  | .nil, level :: up => afterSubtree level.left level.tree level.right up

/-- The node after the subtree of the spot. -/
def following? (s : Spot) : Option Spot := afterSubtree s.left s.tree s.right s.up

/-- The node that comes last in document order among siblings and everything below them. -/
def last? (left : List Tree) (up : List Level) : Forest → Option Spot
  | .nil => none
  | .node n below after =>
    match last? (⟨n, below⟩ :: left) up after with
    | some s => some s
    | none =>
      match last? [] (⟨left, ⟨n, below⟩, after⟩ :: up) below with
      | some s => some s
      | none => some ⟨left, ⟨n, below⟩, after, up⟩

/-- The node before: the last one of the sibling before, or the parent unless that is the scope. -/
def preceding? (s : Spot) : Option Spot :=
  match s.left with
  | t :: more =>
    let right := Forest.node s.tree.head s.tree.below s.right
    match last? [] (⟨more, t, right⟩ :: s.up) t.below with
    | some s => some s
    | none => some ⟨more, t, right, s.up⟩
  | [] =>
    match s.up with
    | [] => none
    | level :: up => some ⟨level.left, level.tree, level.right, up⟩

end Spot

/-- A walk through the nodes below a node. -/
structure Cursor where
  scope : Tree
  /-- The current node, none before the first one. -/
  spot : Option Spot
  /-- Whether the next move passes over what lies below the current node. -/
  skipping : Bool
  /-- Whether the last node is behind the cursor. -/
  finished : Bool
  /-- Whether the walk is over for good. -/
  detached : Bool
  deriving DecidableEq, Repr

namespace Cursor

/-- A walk that has not begun. -/
def start (scope : Tree) : Cursor := ⟨scope, none, false, false, false⟩

/-- Moves to the next node and answers it. -/
def next (c : Cursor) : Option Tree × Cursor :=
  if c.detached || c.finished then (none, c)
  else
    let next :=
      match c.spot with
      | none => Spot.first? [] c.scope.below
      | some s => if c.skipping then s.following? else s.child?.or s.following?
    match next with
    | some s => (some s.tree, { c with spot := some s, skipping := false })
    | none => (none, { c with skipping := false, finished := true })

/-- Moves to the node before and answers it. -/
def previous (c : Cursor) : Option Tree × Cursor :=
  if c.detached then (none, c)
  else if c.finished then (c.spot.map (·.tree), { c with finished := false })
  else
    let before := c.spot.bind Spot.preceding?
    (before.map (·.tree), { c with spot := before, skipping := false })

/-- Makes the next move pass over what lies below the current node. -/
def skipChildren (c : Cursor) : Cursor := { c with skipping := true }

/-- Goes back to where the walk has not begun. A walk that is over stays over. -/
def reset (c : Cursor) : Cursor := { c with spot := none, skipping := false, finished := false }

/-- Ends the walk for good. -/
def detach (c : Cursor) : Cursor := { c with detached := true, spot := none }

/-- Moves on until nothing is left or the bound on moves is reached, passing over what lies below
the nodes that `skip` holds of; answers the nodes met. -/
def sweep (skip : Node → Bool) : Nat → Cursor → List Tree × Cursor
  | 0, c => ([], c)
  | moves + 1, c =>
    match c.next with
    | (none, c) => ([], c)
    | (some t, c) =>
      let (more, c) := sweep skip moves (if skip t.head then c.skipChildren else c)
      (t :: more, c)

/-- Moves on until nothing is left; answers the nodes met. -/
def rest (c : Cursor) : List Tree × Cursor :=
  sweep (fun _ => false) (c.scope.below.size + 1) c

end Cursor

end HAtom.Markup

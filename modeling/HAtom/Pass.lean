import HAtom.Markup.Visible
import HAtom.Problem
import HAtom.ValueCache

/-!
# A pass over a page

What the rules share while they go over a page: the nodes that searches have claimed, the values of
keys seen so far, and the findings in the order in which they were made. A claimed node hides itself
and everything below it from later searches, except from those that start at the node itself.

* `Pass.search` finds and claims the outermost nodes with a keyword.
* `Pass.checkNested` finds nodes with a keyword inside a node with the same one.
* `Pass.scanBelow` and `Pass.scanNodes` find keywords where they do not belong.
-/

namespace HAtom

open Markup

/-- What the rules share while they go over a page. -/
structure Pass where
  /-- The labels of the nodes that searches have claimed. -/
  claimed : List Nat
  /-- The values of keys seen so far. -/
  seen : ValueCache
  /-- The findings so far, the first one first. -/
  findings : List Finding
  deriving DecidableEq, Repr

namespace Pass

/-- The state before anything was looked at. -/
def fresh : Pass := ⟨[], .empty, []⟩

/-! ## Claims and findings -/

/-- Whether the node with this label was claimed. -/
def isClaimed (p : Pass) (label : Nat) : Bool := p.claimed.contains label

/-- Claims nodes. -/
def claim (p : Pass) (labels : List Nat) : Pass := { p with claimed := labels ++ p.claimed }

/-- Whether one of these nodes was claimed: of a node and its ancestors, whether the node is hidden
from the whole page. -/
def isHidden (p : Pass) (lineage : List Node) : Bool := lineage.any fun n => p.isClaimed n.label

/-- Adds findings after those made before. -/
def add (p : Pass) (findings : List Finding) : Pass := { p with findings := p.findings ++ findings }

/-- Adds a problem at a node. -/
def note (p : Pass) (problem : Problem) (n : Node) : Pass := p.add [⟨problem, n.label⟩]

/-- Adds a problem at a node under a condition. -/
def noteIf (p : Pass) (condition : Bool) (problem : Problem) (n : Node) : Pass :=
  if condition then p.note problem n else p

/-- Adds the same problem at each of some nodes. -/
def noteEach (p : Pass) (problem : Problem) (trees : List Tree) : Pass :=
  p.add (trees.map fun t => ⟨problem, t.head.label⟩)

/-! ## Searches -/

/-- Finds and claims the outermost nodes below a node that carry a keyword. -/
def search (p : Pass) (scope : Tree) (name keyword : String) : List Tree × Pass :=
  let found := scope.below.outermost p.isClaimed (·.carries name keyword)
  (found, p.claim (found.map (·.head.label)))

/-- Finds every node below `t` that carries a keyword, which `t` carries itself. -/
def checkNested (p : Pass) (t : Tree) (name keyword : String) : Pass :=
  p.noteEach (.nested keyword)
    ((t.below.visible p.isClaimed).filter fun d => d.head.carries name keyword)

/-- Finds every node below one of these that carries a keyword, which they carry themselves. -/
def checkAllNested (p : Pass) (trees : List Tree) (name keyword : String) : Pass :=
  trees.foldl (fun p t => p.checkNested t name keyword) p

/-- Finds and claims the outermost nodes with a keyword, and reports those nested inside them. -/
def collect (p : Pass) (scope : Tree) (name keyword : String) : List Tree × Pass :=
  let (found, p) := p.search scope name keyword
  (found, p.checkAllNested found name keyword)

/-! ## Values -/

/-- Records the value of an attribute of a node, unless it is empty; answers whether it did. -/
def remember (p : Pass) (name : String) (n : Node) : Bool × Pass :=
  match n.attribute? name with
  | some value => if value.isEmpty then (false, p) else (true, { p with seen := p.seen.push name value })
  | none => (false, p)

/-- Forgets the values of an attribute. -/
def forget (p : Pass) (name : String) : Pass := { p with seen := p.seen.reset name }

/-- Checks the title of a key against those seen before. -/
def checkKey (p : Pass) (kind : KeyKind) (key : Node) : Pass :=
  let value := (key.attribute? "title").getD ""
  if Text.isBlankText value then p.note (.blankKey kind) key
  else if p.seen.contains "title" value then p.note (.duplicateKey kind value) key
  else (p.remember "title" key).2

/-! ## Keywords where they do not belong -/

/-- The attributes of a node that carry a keyword. -/
def strays (keyword : String) (n : Node) : List Finding :=
  (n.attributes.filter fun a => Text.hasWord a.value keyword).map fun a =>
    ⟨.misplaced keyword a.name a.value, n.label⟩

/-- Reports every attribute of these nodes that carries one of the keywords, keyword by keyword. -/
def scanNodes (p : Pass) (nodes : List Node) (keywords : List String) : Pass :=
  p.add (keywords.flatMap fun keyword => nodes.flatMap (strays keyword))

/-- Reports every attribute that carries one of the keywords on a visible node of a forest. -/
def scanBelow (p : Pass) (scope : Forest) (keywords : List String) : Pass :=
  p.scanNodes ((scope.visible p.isClaimed).map (·.head)) keywords

end Pass

end HAtom

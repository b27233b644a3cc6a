import HAtom.Markup.Tree
import HAtom.Text.Words

/-!
# Nodes in sight

Some nodes of a document may be hidden, by their labels; a hidden node hides everything below it.
The searches of the rules see only what is left.

* `Forest.visible` lists the nodes that are left, with what lies below them.
* `Forest.outermost` lists those of them that a test accepts and that lie below no other such node.
* `Node.carries` is the test of the rules: a keyword is a word of an attribute.
-/

namespace HAtom.Markup

/-- Whether the keyword is a word of the attribute with this name. -/
def Node.carries (n : Node) (name keyword : String) : Bool :=
  match n.attribute? name with
  | some value => Text.hasWord value keyword
  | none => false

namespace Forest

/-- The nodes that are not hidden and lie below no hidden node, in document order. -/
def visible (hidden : Nat → Bool) : Forest → List Tree
  | nil => []
  | node n below after =>
    if hidden n.label then visible hidden after
    else ⟨n, below⟩ :: (visible hidden below ++ visible hidden after)

/-- Of the visible nodes that `accepts` holds of, those that lie below no other one. -/
def outermost (hidden : Nat → Bool) (accepts : Node → Bool) : Forest → List Tree
  | nil => []
  | node n below after =>
    if hidden n.label then outermost hidden accepts after
    else if accepts n then ⟨n, below⟩ :: outermost hidden accepts after
    else outermost hidden accepts below ++ outermost hidden accepts after

end Forest

end HAtom.Markup

import HAtom.Markup.Fault

/-!
# The tree of a document

A node carries a label that identifies it, its content and its place in the text. The nodes below
a node form a `Forest`: nothing, or a first node with the forest below it and the forest of the
nodes after it. Everything that walks a document recurses on forests.

* `Node`, `Forest`, `Tree` and `Document` are the data.
* `Forest.trees` lists the nodes of a forest with their subtrees in document order, and
  `Forest.places` also with their ancestors.
* `Node.attribute?` looks an attribute up by its local name outside every namespace.
-/

namespace HAtom.Markup

/-! ## Nodes -/

/-- An attribute of an element. -/
structure Attribute where
  /-- The namespace of the attribute, `none` for a name without qualifier. -/
  space : Option String
  /-- The local name. -/
  name : String
  value : String
  deriving DecidableEq, Repr

/-- What a node is. -/
inductive Content
  /-- The document itself, at the root of its tree. -/
  | document
  | element (name : String) (attributes : List Attribute)
  | text (value : String)
  | comment
  /-- A processing instruction. -/
  | instruction (target : String)
  deriving DecidableEq, Repr

/-- A node of a document without what lies below it. -/
structure Node where
  /-- Identifies the node in its document; nodes that are read are counted in document order. -/
  label : Nat
  content : Content
  position : Position
  deriving DecidableEq, Repr

namespace Node

/-- The name a node is reported under. -/
def name (n : Node) : String :=
  match n.content with
  | .document => "#document"
  | .element name _ => name
  | .text _ => "#text"
  | .comment => "#comment"
  | .instruction target => target

/-- Whether the node is an element. -/
def isElement (n : Node) : Bool :=
  match n.content with
  | .element _ _ => true
  | _ => false

/-- Whether the node is an element with the given local name. -/
def isTag (n : Node) (name : String) : Bool :=
  match n.content with
  | .element tag _ => tag == name
  | _ => false

/-- The attributes of an element in document order; other nodes have none. -/
def attributes (n : Node) : List Attribute :=
  match n.content with
  | .element _ attributes => attributes
  | _ => []

/-- The value of the attribute with this name outside every namespace. -/
def attribute? (n : Node) (name : String) : Option String :=
  (n.attributes.find? fun a => a.space.isNone && a.name == name).map (·.value)

/-- The text of a text node. -/
def text (n : Node) : String :=
  match n.content with
  | .text value => value
  | _ => ""

end Node

/-! ## Forests and trees -/

/-- A sequence of sibling nodes, each with the forest below it. -/
inductive Forest
  | nil
  /-- A first node, the forest below it, and the siblings after it. -/
  | node (head : Node) (below after : Forest)
  deriving DecidableEq, Repr

/-- A node with everything below it. -/
structure Tree where
  head : Node
  below : Forest
  deriving DecidableEq, Repr

/-- A node with everything below it and its ancestors, the nearest first. -/
structure Place where
  tree : Tree
  above : List Node
  deriving DecidableEq, Repr

namespace Forest

/-- The siblings of two forests one after another. -/
def append : Forest → Forest → Forest
  | nil, g => g
  | node n below after, g => node n below (append after g)

/-- The forest with these trees at the top. -/
def ofTrees : List Tree → Forest
  | [] => nil
  | t :: rest => node t.head t.below (ofTrees rest)

/-- All nodes of a forest with what lies below them, in document order. -/
def trees : Forest → List Tree
  | nil => []
  | node n below after => ⟨n, below⟩ :: (trees below ++ trees after)

/-- All nodes of a forest in document order. -/
def nodes (f : Forest) : List Node := f.trees.map (·.head)

/-- All nodes of a forest that lies below the nodes `above`, in document order. -/
def places (above : List Node) : Forest → List Place
  | nil => []
  | node n below after => ⟨⟨n, below⟩, above⟩ :: (places (n :: above) below ++ places above after)

/-- The text of all text nodes, in document order. -/
def text : Forest → String
  | nil => ""
  | node n below after => n.text ++ text below ++ text after

/-- The number of nodes. -/
def size : Forest → Nat
  | nil => 0
  | node _ below after => 1 + size below + size after

/-- The same forest with its nodes counted from `next` on in document order. -/
def numbered (next : Nat) : Forest → Forest
  | nil => nil
  | node n below after =>
    node { n with label := next } (numbered (next + 1) below)
      (numbered (next + 1 + below.size) after)

end Forest

namespace Tree

/-- The text of the node, if it is a text node, and of all text nodes below it. -/
def text (t : Tree) : String := t.head.text ++ t.below.text

end Tree

namespace Place

/-- The node of a place. -/
def node (p : Place) : Node := p.tree.head

/-- The node and its ancestors, the node first. -/
def lineage (p : Place) : List Node := p.node :: p.above

/-- The names from the root of the document to the node. -/
def path (p : Place) : String := " > ".intercalate (p.lineage.reverse.map Node.name)

end Place

/-! ## Documents -/

/-- A document: the tree whose root stands for the document itself. -/
structure Document where
  root : Tree
  deriving DecidableEq, Repr

namespace Document

/-- The document with this content, its nodes counted in document order from the root on. -/
def ofForest (f : Forest) : Document := ⟨⟨⟨0, .document, ⟨1, 1⟩⟩, f.numbered 1⟩⟩

/-- All nodes of a document in document order, the root first. -/
def places (d : Document) : List Place :=
  ⟨d.root, []⟩ :: d.root.below.places [d.root.head]

/-- The place of the node with a label. -/
def place? (d : Document) (label : Nat) : Option Place :=
  d.places.find? fun p => p.node.label == label

end Document

end HAtom.Markup

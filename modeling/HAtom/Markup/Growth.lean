import HAtom.Markup.Event.Reader
import HAtom.Markup.Reference
import HAtom.Markup.Tree

/-!
# A document under construction

The events of a document build its tree: a stack of elements that are open, each with its children
so far. On the way qualifiers are resolved to namespaces, references are replaced by what they
stand for, and neighbouring text is joined into one node.

* `Growth` is the state of construction and `Growth.step` the effect of one event.
* `Growth.expand` reads the replacement text of an entity as content. Entities may refer to each
  other ten levels deep, with at most 255 references below one reference of the document.
* `Document.parse` reads a text, `Document.ofBytes` a sequence of bytes.
-/

namespace HAtom.Markup

/-! ## The state of construction -/

/-- A qualifier, or none for names without one, and the namespace it stands for. -/
structure Binding where
  qualifier : Option String
  uri : String
  deriving DecidableEq, Repr

/-- An attribute whose qualifier is not yet resolved. -/
structure PendingAttribute where
  name : Name
  start : Position
  value : String
  deriving DecidableEq, Repr

/-- An element, or the document, that is open. -/
structure OpenNode where
  node : Node
  /-- The qualifier that the name of the element has in its open tag. -/
  qualifier : String
  bindings : List Binding
  /-- The children so far, the last one first. -/
  children : List Tree

/-- A document under construction. -/
structure Growth where
  /-- What is open innermost. -/
  current : OpenNode
  /-- What is open around it, up to the document. -/
  outer : List OpenNode
  /-- Whether text that follows joins the last child. -/
  afterText : Bool
  /-- The tag that was opened last in the text being read. -/
  tag : Option (Name × Position)
  /-- The attributes of the tag that is not yet complete. -/
  pending : List PendingAttribute
  /-- The namespaces declared by the tag that is not yet complete. -/
  declared : List Binding
  entities : List (String × Source)
  /-- The references counted below a reference of the document. -/
  references : Nat

namespace Growth

/-- The address of a namespace that belongs to markup itself: its scheme, its host and a path. -/
def markupUri (path : String) : String := "http" ++ "://" ++ "www.w3.org" ++ path

/-- The namespace that the qualifier `xml` always stands for. -/
def xmlUri : String := markupUri "/XML/1998/namespace"

/-- The namespace of namespace declarations, which none may declare. -/
def xmlnsUri : String := markupUri "/2000/xmlns/"

/-- The levels of entities below each other. -/
def maxDepth : Nat := 10

/-- The references below one reference of the document. -/
def maxReferences : Nat := 255

/-- A document with nothing in it. -/
def start : Growth where
  current := ⟨⟨0, .document, ⟨1, 1⟩⟩, "", [], []⟩
  outer := []
  afterText := false
  tag := none
  pending := []
  declared := []
  entities := []
  references := 0

/-- Adds a child to what is open innermost. -/
def addChild (g : Growth) (t : Tree) : Growth :=
  { g with current := { g.current with children := t :: g.current.children }, afterText := false }

/-- Adds a child with nothing below it. -/
def addLeaf (g : Growth) (content : Content) (position : Position) : Growth :=
  g.addChild ⟨⟨0, content, position⟩, .nil⟩

/-- Adds text, to the last child if that is text that nothing but text has followed. -/
def addText (g : Growth) (value : String) (position : Position) : Growth :=
  match g.afterText, g.current.children with
  | true, ⟨⟨label, .text before, place⟩, below⟩ :: more =>
    let joined : Tree := ⟨⟨label, .text (before ++ value), place⟩, below⟩
    { g with current := { g.current with children := joined :: more } }
  | _, _ => { g.addLeaf (.text value) position with afterText := true }

/-- Counts a reference that ends at `p` if it is `inside` the replacement text of another. -/
def count (inside : Bool) (p : Position) (references : Nat) : Except Malformed Nat :=
  if !inside then .ok references
  else if references < maxReferences then .ok (references + 1)
  else .error (.entityLoop p)

/-- The replacement text of an entity; the first declaration counts. -/
def entity (g : Growth) (name : String) (p : Position) : Except Malformed Source :=
  match g.entities.find? fun e => e.1 == name with
  | some e => .ok e.2
  | none => .error (.unknownEntity name p)

/-! ## Attribute values -/

/-- A character of an attribute value: every blank counts as a space. -/
def attributeChar (c : Char) : Char := if c == '\t' || c == '\n' || c == '\r' then ' ' else c

/-- Whether a line feed follows. -/
def beforeLineFeed : List Piece → Bool
  | .plain '\n' :: _ => true
  | _ => false

/-- How the replacement text of an entity extends a value, given the place after the reference, the
value so far and the references counted. -/
abbrev ValueExpansion :=
  Position → Source → List Char → Nat → Except Malformed (List Char × Nat)

/-- Extends a value, which is given the last character first, by the pieces that follow. Two
characters that end a line together count as one space. -/
def valueOf (g : Growth) (inside : Bool) (expand : ValueExpansion) :
    List Piece → List Char → Nat → Except Malformed (List Char × Nat)
  | [], value, references => .ok (value, references)
  | .plain c :: rest, value, references =>
    if c == '\r' && beforeLineFeed rest then valueOf g inside expand rest value references
    else valueOf g inside expand rest (attributeChar c :: value) references
  | .char c start :: rest, value, references =>
    if !inside then valueOf g inside expand rest (c :: value) references
    else if c == '<' then .error (.attributeValue start)
    else valueOf g inside expand rest (attributeChar c :: value) references
  | .entity name start after :: rest, value, references => do
    let text ← g.entity name start
    let references ← count inside after references
    let (value, references) ← expand after text value references
    valueOf g inside expand rest value (if inside then references else 0)
  | .broken start :: _, _, _ => .error (.entityReference start)

/-- Extends a value by the replacement text of an entity, within `level` more levels. -/
def expandValue (g : Growth) : Nat → ValueExpansion
  | 0, after, _, _, _ => .error (.entityLoop after)
  | level + 1, _, text, value, references =>
    valueOf g true (expandValue g level) (Piece.ofSource text) value references

/-- The value that an attribute has as it is written, when `level` levels of entities are left. -/
def attributeValue (g : Growth) (level : Nat) (written : Source) :
    Except Malformed (String × Nat) := do
  let (value, references) ←
    valueOf g (level < maxDepth) (expandValue g level) (Piece.ofSource written) [] g.references
  return (String.ofList value.reverse, references)

/-! ## Namespaces -/

/-- Declares a namespace for the tag that is not yet complete. -/
def declare (g : Growth) (qualifier : Option String) (uri : String) : Growth :=
  { g with declared := g.declared ++ [⟨qualifier, uri⟩] }

/-- The effect of an attribute: a declaration of a namespace, or an attribute to be resolved. -/
def addAttribute (g : Growth) (name : Name) (start : Position) (value : String) :
    Except Malformed Growth :=
  if name.qualifier == "xmlns" then
    if value == xmlnsUri then .error (.unexpectedXmlnsUri start)
    else if name.base == "xml" && value != xmlUri then .error (.xmlPrefixUri start)
    else if name.base != "xml" && value == xmlUri then .error (.unexpectedXmlUri start)
    else if g.declared.any fun b => b.qualifier == some name.base then
      .error (.duplicateNamespace name.base start)
    else if value == xmlUri then .ok g
    else .ok (g.declare (some name.base) value)
  else if name.base == "xmlns" then
    if value == xmlUri then .error (.unexpectedXmlUri start)
    else if value == xmlnsUri then .error (.unexpectedXmlnsUri start)
    else .ok (g.declare none value)
  else .ok { g with pending := g.pending ++ [⟨name, start, value⟩] }

/-- The namespaces in force inside the tag that is being completed. -/
def bindings (g : Growth) : List Binding :=
  if g.current.node.isElement then
    g.declared ++ g.current.bindings.filter fun b =>
      !g.declared.any fun d => d.qualifier == b.qualifier
  else g.declared

/-- The namespace of a qualifier. -/
def namespaceOf (bindings : List Binding) (qualifier : String) (p : Position) :
    Except Malformed String :=
  match bindings.find? fun b => b.qualifier == some qualifier with
  | some b => .ok b.uri
  | none => .error (.unknownNamespace qualifier p)

/-- The attributes of a tag after those `done`, with their qualifiers resolved. No two may have one
name in one namespace. -/
def resolve (bindings : List Binding) (done : List Attribute) :
    List PendingAttribute → Except Malformed (List Attribute)
  | [] => .ok done
  | a :: rest => do
    let space ←
      if a.name.qualifier == "xml" then pure (some xmlUri)
      else if a.name.qualifier.isEmpty then pure none
      else some <$> namespaceOf bindings a.name.qualifier a.start
    if done.any fun d => d.space == space && d.name == a.name.base then
      throw (.duplicateAttribute a.name.base a.start)
    else resolve bindings (done ++ [⟨space, a.name.base, a.value⟩]) rest

/-! ## Tags -/

/-- The growth after the pending parts of a tag have been used. -/
def settle (g : Growth) : Growth := { g with pending := [], declared := [], afterText := false }

/-- Completes a tag: the element without content, and the namespaces in force in it. -/
def complete (g : Growth) (tag : Name × Position) :
    Except Malformed (Growth × Node × List Binding) := do
  let bindings := g.bindings
  let attributes ← resolve bindings [] g.pending
  let (name, start) := tag
  if !name.qualifier.isEmpty then
    let _ ← namespaceOf bindings name.qualifier ⟨start.line, start.column + 1⟩
  return (g.settle, ⟨0, .element name.base attributes, start⟩, bindings)

/-- Closes what is open innermost, if that is an element with this name. A close tag for the
document itself, which only an entity can lead to, changes nothing. -/
def close (g : Growth) (name : Name) (start : Position) : Except Malformed Growth := do
  let _ ← resolve g.bindings [] g.pending
  let g := g.settle
  match g.current.node.content, g.outer with
  | .element base _, parent :: outer =>
    let expected : Name := ⟨g.current.qualifier, base⟩
    if expected != name then throw (.closeTag expected.text name.text start)
    else
      let done : Tree := ⟨g.current.node, Forest.ofTrees g.current.children.reverse⟩
      return { g with current := { parent with children := done :: parent.children }, outer }
  | _, _ => return g

/-! ## Text and events -/

/-- How the replacement text of an entity continues a document, given the place after the
reference. -/
abbrev Expansion := Position → Source → Growth → Except Malformed Growth

/-- Extends text, which is given the last character first, by a character that may end a line.
Every end of a line counts as a line feed; whether a carriage return ends a line by itself is known
only after the next character or at the end of the text. -/
def extend (value : List Char) (c : Char) (last : Bool) : List Char :=
  match value with
  | '\r' :: before =>
    if last && c == '\r' then '\n' :: '\n' :: before
    else if c == '\n' then '\n' :: before
    else c :: '\n' :: before
  | value => (if last && c == '\r' then '\n' else c) :: value

/-- Adds collected text, if there is any. -/
def flush (g : Growth) (value : List Char) (start : Position) : Growth :=
  if value.isEmpty then g else g.addText (String.ofList value.reverse) start

/-- Adds the pieces of a text that starts at `start`. The character after a reference to a
character is taken as it is, when it stands in the document itself. -/
def textOf (inside : Bool) (expand : Expansion) (start : Position) :
    List Piece → List Char → Bool → Growth → Except Malformed Growth
  | [], value, _, g => .ok (g.flush value start)
  | .plain c :: rest, value, asIs, g =>
    let value := if asIs then c :: value else extend value c rest.isEmpty
    textOf inside expand start rest value false g
  | .char c _ :: rest, value, asIs, g =>
    if inside then textOf inside expand start rest (extend value c rest.isEmpty) asIs g
    else textOf inside expand start rest (c :: value) true g
  | .entity name place after :: rest, value, _, g => do
    let text ← g.entity name place
    let g := g.flush value start
    let references ← count inside after g.references
    let g ← expand after text { g with references }
    textOf inside expand start rest [] false (if inside then g else { g with references := 0 })
  | .broken place :: _, _, _, _ => .error (.entityReference place)

/-- Joins verbatim characters, the last one first, with the ends of lines as line feeds. -/
def verbatimOf : List Char → List Char → List Char
  | [], value => value
  | c :: rest, value => verbatimOf rest (extend value c rest.isEmpty)

/-- The effect of an event, when `level` levels of entities are left. -/
def step (level : Nat) (expand : Expansion) (g : Growth) (event : Event) :
    Except Malformed Growth :=
  match event with
  | .tag name start =>
    if name.qualifier == "xmlns" then
      .error (.elementNamePrefix ⟨start.line, start.column + 1⟩)
    else .ok { g with tag := some (name, start), afterText := false }
  | .attr name start written => do
    let (value, references) ← g.attributeValue level written
    addAttribute { g with references, afterText := false } name start value
  | .opened =>
    match g.tag with
    | none => .ok g
    | some tag => do
      let (g, node, bindings) ← g.complete tag
      return { g with
        current := ⟨node, tag.1.qualifier, bindings, []⟩
        outer := g.current :: g.outer }
  | .empty =>
    match g.tag with
    | none => .ok g
    | some tag => do
      let (g, node, _) ← g.complete tag
      return g.addChild ⟨node, .nil⟩
  | .closed name start =>
    match g.tag with
    | none => .error (.entityCloseTag start)
    | some _ => g.close name start
  | .text value start =>
    textOf (level < maxDepth) expand start (Piece.ofSource value) [] false g
  | .verbatim value start =>
    let chars := verbatimOf (value.rest.map (·.char)) []
    .ok (g.addText (String.ofList chars.reverse) start)
  | .comment start => .ok (g.addLeaf .comment start)
  | .instruction target start => .ok (g.addLeaf (.instruction target) start)
  | .entity name value => .ok { g with entities := g.entities ++ [(name, value)] }

/-- Continues a document by the replacement text of an entity, within `level` levels. Tags of the
text around it are out of reach until one is opened in the text itself. -/
def expand : Nat → Expansion
  | 0, after, _, _ => .error (.entityLoop after)
  | level + 1, _, text, g => do
    let (events, fault) := Event.ofContent text
    let grown ← events.foldlM (step level (expand level)) { g with tag := none }
    match fault with
    | some fault => throw fault
    | none => return { grown with tag := g.tag }

/-- The content of a document that is complete. -/
def finish (g : Growth) : Except Malformed Forest :=
  match g.outer with
  | _ :: _ => .error .unclosedRoot
  | [] =>
    if g.current.children.any fun t => t.head.isElement then
      .ok (Forest.ofTrees g.current.children.reverse)
    else .error .noRoot

end Growth

/-! ## Reading documents -/

namespace Document

/-- Reads the content of a document. -/
def forest (text : String) : Except Malformed Forest := do
  let (events, fault) := Event.ofDocument (Source.ofString text)
  let level := Growth.maxDepth
  let grown ← events.foldlM (Growth.step level (Growth.expand level)) Growth.start
  match fault with
  | some fault => throw fault
  | none => grown.finish

/-- Reads a document from a text. -/
def parse (text : String) : Except Malformed Document := (forest text).map ofForest

/-- Reads a document from bytes. -/
def ofBytes (bytes : List UInt8) : Except Fault Document :=
  match Text.Utf8.decode bytes with
  | .error fault => .error (.encoding fault)
  | .ok text => (parse text).mapError .malformed

end Document

end HAtom.Markup

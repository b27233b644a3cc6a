import HAtom.Markup.Tree

/-!
# Reports

A report says what was found, and where. It does not hold on to the document: of the node it keeps
the parts that are shown, so that reports outlive what they were made from.

* `Snapshot.ofPlace` keeps what is shown of a node.
* `Report.text` is the form shown to a reader.
-/

namespace HAtom

open Markup

/-- What is kept of a node that a report points at. -/
structure Snapshot where
  name : String
  /-- The names from the root of the document to the node. -/
  path : String
  /-- The attributes by local name, in document order. -/
  attributes : List (String × String)
  line : UInt32
  column : UInt32
  deriving DecidableEq, Repr

namespace Snapshot

/-- What is kept of a node in its place. -/
def ofPlace (p : Place) : Snapshot where
  name := p.node.name
  path := p.path
  attributes := p.node.attributes.map fun a => (a.name, a.value)
  line := p.node.position.line.toUInt32
  column := p.node.position.column.toUInt32

/-- The open tag made anew from what is kept. -/
def openTag (s : Snapshot) : String :=
  let attributes := s.attributes.map fun (name, value) => name ++ "=\"" ++ value ++ "\" "
  "<" ++ s.name ++ " " ++ String.join attributes ++ ">"

end Snapshot

/-- A finding as it is shown: what, and where if it belongs to a node. -/
structure Report where
  message : String
  node : Option Snapshot
  deriving DecidableEq, Repr

namespace Report

/-- A report that says nothing. -/
def blank : Report := ⟨"", none⟩

/-- A report that belongs to no node. -/
def ofMessage (message : String) : Report := ⟨message, none⟩

/-- A report at a node. -/
def atPlace (message : String) (p : Place) : Report := ⟨message, some (Snapshot.ofPlace p)⟩

/-- The path to the node, empty without one. -/
def path (r : Report) : String := (r.node.map (·.path)).getD ""

/-- The form shown to a reader: the message, then the name, the path and the open tag of the
node. -/
def text (r : Report) : String :=
  let node :=
    match r.node with
    | some s => "Node name: " ++ s.name ++ "\nNode path: " ++ s.path ++ "\n" ++ s.openTag
    | none => ""
  r.message ++ "\n" ++ node ++ " \n"

end Report

end HAtom

import HAtom.Json.Printer
import HAtom.Json.Reader
import HAtom.Report

/-!
# Reports as JSON

The form in which reports are handed to other programs. A report is an object with a message and a
node, which may be null; attributes are pairs, because a name can occur twice.

* `Report.toJson` is the value for a report and `Report.ofJson?` reads such a value.
* `Report.encode` and `Report.decode?` do the same with texts.
-/

namespace HAtom

/-- The value for what is kept of a node. -/
def Snapshot.toJson (s : Snapshot) : Json :=
  .object [
    ("name", .string s.name),
    ("path", .string s.path),
    ("attributes", .array (s.attributes.map fun a => .array [.string a.1, .string a.2])),
    ("line", .nat s.line.toNat),
    ("column", .nat s.column.toNat)]

/-- Reads an attribute: a list of exactly two texts. -/
def Snapshot.attribute? : Json → Option (String × String)
  | .array [.string name, .string value] => some (name, value)
  | _ => none

/-- Reads a number of 32 bits. -/
def Snapshot.word? (v : Json) : Option UInt32 := (v.nat? 0xFFFFFFFF).map (·.toUInt32)

/-- Reads what is kept of a node; every field is needed. -/
def Snapshot.ofJson? (v : Json) : Option Snapshot :=
  match v.record? ["name", "path", "attributes", "line", "column"] with
  | some [some name, some path, some (.array attributes), some line, some column] => do
    return {
      name := ← name.string?
      path := ← path.string?
      attributes := ← attributes.mapM attribute?
      line := ← word? line
      column := ← word? column }
  | _ => none

namespace Report

/-- The value for a report. -/
def toJson (r : Report) : Json :=
  .object [("message", .string r.message), ("node", .optional (r.node.map Snapshot.toJson))]

/-- Reads a report. The node may be null, and in an object also missing. -/
def ofJson? (v : Json) : Option Report :=
  match v.record? ["message", "node"] with
  | some [some message, some .null] => do return ⟨← message.string?, none⟩
  | some [some message, some node] => do
    return ⟨← message.string?, some (← Snapshot.ofJson? node)⟩
  | some [some message, none] =>
    if v.isArray then none else do return ⟨← message.string?, none⟩
  | _ => none

/-- The text that writes a report. -/
def encode (r : Report) : String := r.toJson.compact

/-- Reads a report from a text. -/
def decode? (text : String) : Option Report := (Json.parse? text).bind ofJson?

end Report

end HAtom

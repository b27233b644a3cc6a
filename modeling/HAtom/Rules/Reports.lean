import HAtom.Report
import HAtom.Rules.Page

/-!
# The reports of a page

A finding names a node by its label; its report shows what the document says about that node.

* `Markup.Document.report` is the report of a finding.
* `Markup.Document.reports` are the reports of a page.
-/

namespace HAtom.Markup

/-- The report of a finding among these places. -/
def reportAmong (places : List Place) (f : Finding) : Report :=
  match places.find? fun p => p.node.label == f.label with
  | some p => Report.atPlace f.problem.message p
  | none => Report.ofMessage f.problem.message

namespace Document

/-- The reports of findings in a document. -/
def reportsOf (d : Document) (findings : List Finding) : List Report :=
  findings.map (reportAmong d.places)

/-- The reports of a page. -/
def reports (d : Document) : List Report := d.reportsOf d.findings

end Document

end HAtom.Markup

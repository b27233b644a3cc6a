import HAtom.Report

/-!
# Listing reports

How the reports of one document are shown after a check: how long it took, whether the document is
valid, and every report in full.
-/

namespace HAtom.Report

/-- The whole milliseconds of a time in nanoseconds. -/
def milliseconds (elapsed : Nat) : Nat := elapsed / 1000000

/-- The text that shows the reports of a check which took `elapsed` nanoseconds. -/
def listing (reports : List Report) (elapsed : Nat) : String :=
  let time := "Validation completed in " ++ toString (milliseconds elapsed) ++ " milliseconds\n"
  let findings :=
    if reports.isEmpty then "File contains valid hAtom microformat\n"
    else
      toString reports.length ++ " errors found\n" ++ String.join (reports.map Report.text)
  time ++ findings

end HAtom.Report

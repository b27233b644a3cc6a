import HAtom.Failure
import HAtom.Number.Ratio

/-!
# Results of many documents

What came of checking each document, and of all of them together.

* `FileResult` is the result for one file. `FileResult.completed`, `FileResult.failed` and
  `FileResult.skipped` make one.
* `Summary.ofResults` counts results; `Summary.withMetrics` replaces what was measured.
-/

namespace HAtom

/-- What came of checking a file. -/
inductive Status
  /-- There was nothing to report. -/
  | valid
  /-- There was something to report. -/
  | invalid (count : Nat)
  /-- The document could not be checked. -/
  | error (message : String)
  /-- The document was not checked. -/
  | skipped (reason : String)
  deriving DecidableEq, Repr

namespace Status

/-- Whether there was nothing to report. -/
def isValid : Status → Bool
  | valid => true
  | _ => false

/-- Whether there was something to report. -/
def isInvalid : Status → Bool
  | invalid _ => true
  | _ => false

/-- Whether the document could not be checked. -/
def isError : Status → Bool
  | error _ => true
  | _ => false

/-- Whether the document was not checked. -/
def isSkipped : Status → Bool
  | skipped _ => true
  | _ => false

end Status

/-- The result for one file. -/
structure FileResult where
  path : String
  status : Status
  /-- The nanoseconds that the check took. -/
  duration : Nat
  /-- The reports in the order in which they were made. -/
  reports : List Report
  deriving DecidableEq, Repr

namespace FileResult

/-- The result of a check that came to its end: valid when there is nothing to report. -/
def completed (path : String) (reports : List Report) (duration : Nat) : FileResult where
  path
  status := if reports.isEmpty then .valid else .invalid reports.length
  duration
  reports

/-- The result for a document that could not be checked. -/
def failed (path : String) (failure : Failure) (duration : Nat) : FileResult :=
  ⟨path, .error failure.message, duration, []⟩

/-- The result for a document that was not checked. -/
def skipped (path reason : String) (duration : Nat) : FileResult :=
  ⟨path, .skipped reason, duration, []⟩

end FileResult

/-- What was measured on a batch; times are in nanoseconds. -/
structure Metrics where
  total : Nat
  discovery : Nat
  validation : Nat
  average : Nat
  /-- The files per second. -/
  throughput : Measure
  /-- How many documents may be checked at the same time. -/
  concurrent : Nat
  /-- The reports on all files. -/
  reports : Nat
  deriving DecidableEq, Repr

/-- The results for many files and their counts. -/
structure Summary where
  files : Nat
  valid : Nat
  invalid : Nat
  errors : Nat
  skipped : Nat
  reports : Nat
  /-- The nanoseconds that all checks took together. -/
  duration : Nat
  /-- The whole nanoseconds that a check took on average. -/
  average : Nat
  results : List FileResult
  metrics : Metrics
  deriving DecidableEq, Repr

/-- The files per second when a number of files take a time in nanoseconds. -/
def filesPerSecond (files duration : Nat) : Measure :=
  let seconds := secondsOf duration
  .ofRatio (((Ratio.ofNat files).nearest.div seconds).nearest)

namespace Summary

/-- The number of results whose status a test accepts. -/
def count (test : Status → Bool) (results : List FileResult) : Nat :=
  results.countP fun r => test r.status

/-- The sum of a number for each result. -/
def total (measure : FileResult → Nat) : List FileResult → Nat
  | [] => 0
  | r :: rest => measure r + total measure rest

/-- Counts results. What is measured comes from the checks alone. -/
def ofResults (results : List FileResult) : Summary :=
  let duration := total FileResult.duration results
  let reports := total (fun r => r.reports.length) results
  let average := duration / results.length
  { files := results.length
    valid := count Status.isValid results
    invalid := count Status.isInvalid results
    errors := count Status.isError results
    skipped := count Status.isSkipped results
    reports
    duration
    average
    results
    metrics := {
      total := duration
      discovery := 0
      validation := duration
      average
      throughput := filesPerSecond results.length duration
      concurrent := 1
      reports } }

/-- Counts results that come with measures of their own, in which only the number of reports is
counted anew. -/
def withMetrics (results : List FileResult) (metrics : Metrics) : Summary :=
  let s := ofResults results
  { s with metrics := { metrics with reports := s.reports } }

/-- Whether there are files and all of them are valid. -/
def allValid (s : Summary) : Bool := s.valid == s.files && 0 < s.files

/-- Whether a file has reports or could not be checked. -/
def hasErrors (s : Summary) : Bool := 0 < s.errors || 0 < s.invalid

/-- The valid files in percent, zero without files. -/
def successRate (s : Summary) : Ratio :=
  let share := ((Ratio.ofNat s.valid).divNat s.files).nearest
  (share.mul (.ofNat 100)).nearest

end Summary

end HAtom

import HAtom.Batch.Summary
import HAtom.Report.Exchange
import HAtom.Report.Listing

/-!
# Showing results

The results of a batch as text to read, as one line, or as JSON for other programs. `Display` holds
the choices: how much is said, in which format, and whether in colours.

* `Display.results` shows a whole batch, `Display.file` one file.
* `Summary.toJson` is the value for a batch.
-/

namespace HAtom

/-- The formats in which results are shown. -/
inductive Format
  | human
  | json
  | summary
  deriving DecidableEq, Repr

/-- How results are shown. -/
structure Display where
  verbosity : Verbosity
  format : Format
  /-- Whether words are set in colours of a terminal. -/
  colors : Bool
  deriving DecidableEq, Repr

/-! ## JSON -/

/-- The value for a status: its name, with what it holds. -/
def Status.toJson : Status → Json
  | valid => .string "Valid"
  | invalid count => .object [("Invalid", .object [("report_count", .nat count)])]
  | error message => .object [("Error", .object [("message", .string message)])]
  | skipped reason => .object [("Skipped", .object [("reason", .string reason)])]

/-- The value for the result of one file. -/
def FileResult.toJson (r : FileResult) : Json :=
  .object [
    ("path", .string r.path),
    ("status", r.status.toJson),
    ("duration_ms", .nat (Report.milliseconds r.duration)),
    ("reports", .array (r.reports.map Report.toJson))]

/-- The value for a batch. -/
def Summary.toJson (s : Summary) : Json :=
  .object [
    ("total_files", .nat s.files),
    ("valid_files", .nat s.valid),
    ("invalid_files", .nat s.invalid),
    ("error_files", .nat s.errors),
    ("skipped_files", .nat s.skipped),
    ("total_reports", .nat s.reports),
    ("duration_ms", .nat (Report.milliseconds s.metrics.total)),
    ("files", .array (s.results.map FileResult.toJson))]

namespace Display

/-! ## Text -/

/-- A text in the colour with a number, if colours are wanted. -/
def colored (d : Display) (color text : String) : String :=
  if d.colors then "\x1b[" ++ color ++ "m" ++ text ++ "\x1b[0m" else text

/-- The number of the colour for what is good. -/
def green : String := "32"

/-- The number of the colour for what is wrong. -/
def red : String := "31"

/-- The number of the colour for what failed. -/
def yellow : String := "33"

/-- The number of the colour for what was left out. -/
def cyan : String := "36"

/-- The result of one file, with its reports below. -/
def file (d : Display) (r : FileResult) : String :=
  let place := "  " ++ r.path ++ " (" ++ durationText r.duration ++ ")"
  match r.status with
  | .valid => d.colored green "✓ VALID" ++ place
  | .invalid count =>
    d.colored red "✗ INVALID" ++ place ++ " - " ++ toString count ++ " error" ++
      (if count == 1 then "" else "s") ++ "\n" ++ Report.listing r.reports r.duration
  | .error message => d.colored yellow "⚠ ERROR" ++ place ++ " - " ++ message
  | .skipped reason => d.colored cyan "- SKIPPED" ++ place ++ " - " ++ reason

/-- What was measured on a batch. -/
def measures (d : Display) (m : Metrics) : String :=
  let times :=
    if d.verbosity == .debug then
      "  Discovery: " ++ durationText m.discovery ++ "\n" ++
        "  Validation: " ++ durationText m.validation ++ "\n" ++
        "  Average per file: " ++ durationText m.average ++ "\n"
    else ""
  "\nPerformance Metrics:\n" ++ "  Throughput: " ++ m.throughput.fixed 1 ++ " files/sec\n" ++
    "  Concurrent validations: " ++ toString m.concurrent ++ "\n" ++ times

/-- A line with a coloured label and a text, if there is something to count. -/
def countLine (d : Display) (count : Nat) (color label text : String) : String :=
  if 0 < count then "  " ++ d.colored color label ++ " " ++ toString count ++ text ++ "\n" else ""

/-- The counts of a batch. -/
def counts (d : Display) (s : Summary) : String :=
  "Validation Summary:\n" ++
    "  Total files: " ++ toString s.files ++ "\n" ++
    "  " ++ d.colored green "Valid:" ++ " " ++ toString s.valid ++ "\n" ++
    d.countLine s.invalid red "Invalid:" (" (" ++ toString s.reports ++ " reports)") ++
    d.countLine s.errors yellow "Errors:" "" ++
    d.countLine s.skipped cyan "Skipped:" "" ++
    "  Success rate: " ++ s.successRate.fixed 1 ++ "%\n" ++
    "  Duration: " ++ durationText s.metrics.total ++ "\n" ++
    (if d.verbosity.isVerbose then d.measures s.metrics else "")

/-- A batch as text to read: the files that are not valid, or every file if much is said, and the
counts unless there is just one file. When hardly anything is said only failure is. -/
def human (d : Display) (s : Summary) : String :=
  if d.verbosity == .quiet then
    if s.hasErrors then
      "Errors: " ++ toString s.errors ++ " Invalid: " ++ toString s.invalid ++ "\n"
    else ""
  else
    let shown := s.results.filter fun r => d.verbosity.isVerbose || !r.status.isValid
    let files := shown.map fun r => d.file r ++ "\n"
    String.join files ++
      (if 1 < s.files || d.verbosity.isVerbose then d.counts s else "")

/-- A batch as one line. -/
def line (s : Summary) : String :=
  toString s.files ++ " files: " ++ toString s.valid ++ " valid, " ++ toString s.invalid ++
    " invalid, " ++ toString s.errors ++ " errors, " ++ toString s.skipped ++ " skipped, " ++
    toString s.reports ++ " reports\n"

/-- A whole batch. -/
def results (d : Display) (s : Summary) : String :=
  match d.format with
  | .human => d.human s
  | .summary => line s
  | .json => s.toJson.pretty ++ "\n"

end Display

end HAtom

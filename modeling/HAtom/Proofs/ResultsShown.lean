import HAtom.Batch.Display
import HAtom.Proofs.ReportExchange

/-!
# What a batch tells other programs

Results shown as JSON are read back as a value that tells the counts of the batch and, file by file,
everything about the results: only the time is cut to whole milliseconds. What a value tells is said
by the names of its fields, whatever their order, so it is what a program finds that looks for them.

* `Json.field?`: the one field of a name.
* `Status.ofJson?`: the status that a value tells.
* `FileResult.ToldBy` and `Summary.ToldBy`: what a value tells of a result and of a batch.
* `Display.results_told`: what is shown as JSON is a text, a new line, and tells the batch.
-/

namespace HAtom

/-- The value of a field that an object has once. -/
def Json.field? (name : String) : Json → Option Json
  | object fields =>
    match named name fields with
    | [v] => some v
    | _ => none
  | _ => none

theorem Json.field?_object {fields : List (String × Json)} (hnames : (fields.map Prod.fst).Nodup)
    {name : String} {v : Json} (h : (name, v) ∈ fields) :
    (object fields).field? name = some v := by
  rw [field?, named_of_mem hnames h]

/-! ## Statuses -/

namespace Status

/-- The number that a value is. -/
def number? : Json → Option Nat
  | .number (.whole (.ofNat n)) => some n
  | _ => none

/-- The status that a value tells: a name alone, or the name of the one field of an object, in which
there is what the status holds. -/
def ofJson? : Json → Option Status
  | .string "Valid" => some valid
  | .object [("Invalid", v)] => ((v.field? "report_count").bind number?).map invalid
  | .object [("Error", v)] => ((v.field? "message").bind Json.string?).map error
  | .object [("Skipped", v)] => ((v.field? "reason").bind Json.string?).map skipped
  | _ => none

/-- The value for a status tells it. -/
theorem ofJson?_toJson (s : Status) : ofJson? s.toJson = some s := by
  cases s with
  | valid => rfl
  | invalid count => rfl
  | error message => rfl
  | skipped reason => rfl

end Status

/-! ## Results -/

/-- What a value tells of the result for one file. -/
structure FileResult.ToldBy (r : FileResult) (v : Json) : Prop where
  path : v.field? "path" = some (.string r.path)
  status : (v.field? "status").bind Status.ofJson? = some r.status
  /-- A millisecond is a million nanoseconds. -/
  duration : v.field? "duration_ms" = some (.nat (r.duration / 1000000))
  reports : ∃ values, v.field? "reports" = some (.array values) ∧
    values.mapM Report.ofJson? = some r.reports

theorem FileResult.toldBy_toJson (r : FileResult) : r.ToldBy r.toJson := by
  have hstatus : r.toJson.field? "status" = some r.status.toJson :=
    Json.field?_object (by simp) (by simp)
  have hreports : (r.reports.map Report.toJson).mapM Report.ofJson? = some r.reports :=
    mapM_map_self fun report _ => report.ofJson?_toJson
  constructor
  case path => exact Json.field?_object (by simp) (by simp)
  case status =>
    rw [hstatus]
    exact r.status.ofJson?_toJson
  case duration => exact Json.field?_object (by simp) (by simp [Report.milliseconds])
  case reports => exact ⟨_, Json.field?_object (by simp) (by simp), hreports⟩

/-- What a value tells of a batch: the counts, the time and, in order, each result. -/
structure Summary.ToldBy (s : Summary) (v : Json) : Prop where
  files : v.field? "total_files" = some (.nat s.files)
  valid : v.field? "valid_files" = some (.nat s.valid)
  invalid : v.field? "invalid_files" = some (.nat s.invalid)
  errors : v.field? "error_files" = some (.nat s.errors)
  skipped : v.field? "skipped_files" = some (.nat s.skipped)
  reports : v.field? "total_reports" = some (.nat s.reports)
  duration : v.field? "duration_ms" = some (.nat (s.metrics.total / 1000000))
  results : ∃ values, v.field? "files" = some (.array values) ∧
    List.Forall₂ FileResult.ToldBy s.results values

theorem Summary.toldBy_toJson (s : Summary) : s.ToldBy s.toJson := by
  have hresults : List.Forall₂ FileResult.ToldBy s.results (s.results.map FileResult.toJson) := by
    rw [List.forall₂_map_right_iff, List.forall₂_same]
    exact fun r _ => r.toldBy_toJson
  constructor
  case results => exact ⟨_, Json.field?_object (by simp) (by simp), hresults⟩
  all_goals exact Json.field?_object (by simp) (by simp [Report.milliseconds])

/-! ## What is shown -/

/-- An object ends with its bracket. -/
theorem Json.getLast?_pretty_object (fields : List (String × Json)) :
    (object fields).pretty.toList.getLast? = some '}' := by
  rw [pretty, prettyAt, bracketed]
  split
  · rfl
  · rw [String.toList_append]
    exact List.getLast?_concat

namespace Display

/-- **What is shown as JSON tells the batch.** It is the text of one value and a new line; the value
is the same with the new line and without, and it tells the counts and every result in order. -/
theorem results_told {d : Display} (h : d.format = .json) (s : Summary) :
    ∃ text v, d.results s = text ++ "\n" ∧ text.toList.getLast? = some '}' ∧
      Json.parse? text = some v ∧ Json.parse? (d.results s) = some v ∧ s.ToldBy v := by
  have hshown : d.results s = s.toJson.pretty ++ "\n" := by
    rw [results, h]
  have hblank : Json.Blank "\n" := Json.blank_newLine 0
  refine ⟨s.toJson.pretty, s.toJson, hshown, Json.getLast?_pretty_object _, ?_, ?_, ?_⟩
  · exact Json.parse?_pretty _
  · rw [hshown]
    exact Json.parse?_of_reads (Json.reads_prettyAt 0 _) hblank
  · exact s.toldBy_toJson

/-- A page without reports, one with a report that has quotes and no node, and one left out. -/
theorem results_told_of_three :
    let d : Display := ⟨.quiet, .json, true⟩
    let s := Summary.ofResults [
      .completed "blog/ä.html" [] 1999999,
      .completed "a \"b\".html" [.ofMessage "no \\ \n entry"] 0,
      .skipped "c.html" "" 5]
    d.format = .json ∧
      ∃ text v, d.results s = text ++ "\n" ∧ text.toList.getLast? = some '}' ∧
        Json.parse? text = some v ∧ Json.parse? (d.results s) = some v ∧ s.ToldBy v :=
  ⟨rfl, results_told rfl _⟩

end Display

end HAtom

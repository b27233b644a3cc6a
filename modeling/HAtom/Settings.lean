import HAtom.Batch.Display
import HAtom.DataFormat
import HAtom.PathText

/-!
# Settings

What can be chosen about a run of the program. Settings come in layers: those of a file lie over the
ones that hold by default, those of the environment over these, and the arguments of the program over
all. Settings are checked when all layers are in place.

* `Settings.initial` holds by default.
* `Settings.laidOver` lays the settings of a file over others.
* `Settings.check` says what is wrong with settings.
* `Settings.parse?` reads settings from the text of a file.
-/

namespace HAtom

/-- How documents are checked. -/
structure CheckSettings where
  /-- How many documents may be checked at the same time, if that is chosen. -/
  threads : Option Nat := none
  /-- The seconds after which the check of a document is given up. -/
  timeout : Nat := 30
  /-- Whether the program fails when there is anything to report. -/
  failOnReports : Bool := true
  showProgress : Bool := false
  deriving DecidableEq, Repr

/-- How sessions are kept. -/
structure SessionSettings where
  /-- The largest number of sessions. -/
  maxSessions : Nat := 256
  /-- The seconds for which an unused session is kept. -/
  timeToLive : Nat := 600
  deriving DecidableEq, Repr

/-- How results are shown. -/
structure OutputSettings where
  format : Format := .human
  verbose : Bool := false
  quiet : Bool := false
  deriving DecidableEq, Repr

/-- Which files are documents. -/
structure FileSettings where
  extensions : List String := ["html", "xhtml", "htm"]
  /-- Patterns of which a document matches one, if there are any. -/
  includePatterns : List String := []
  /-- Patterns of which a document matches none. -/
  excludePatterns : List String := []
  /-- How many directories deep documents are looked for, if there is a bound. -/
  maxDepth : Option Nat := none
  deriving DecidableEq, Repr

/-- What can be chosen about a run of the program. -/
structure Settings where
  check : CheckSettings := {}
  sessions : SessionSettings := {}
  output : OutputSettings := {}
  files : FileSettings := {}
  /-- The path of a file with a vocabulary. -/
  vocabulary : Option String := none
  deriving DecidableEq, Repr

namespace Settings

/-- The settings that hold when nothing is chosen. -/
def initial : Settings := {}

/-! ## Derived values -/

/-- How much is said. -/
def verbosity (s : Settings) : Verbosity :=
  if s.output.quiet then .quiet else if s.output.verbose then .verbose else .normal

/-- How many documents may be checked at the same time; by default, one by each processor. -/
def concurrency (processors : Nat) (s : Settings) : Nat := s.check.threads.getD processors

/-- How results are shown, with or without colours. -/
def display (s : Settings) (colors : Bool) : Display :=
  ⟨s.verbosity, s.output.format, colors⟩

/-! ## Layers -/

/-- A list, or another one in place of an empty one. -/
def listOr (base overlay : List String) : List String := if overlay.isEmpty then base else overlay

/-- The settings of a file over others: single values are those of the file, lists and optional
values only when the file has them. -/
def laidOver (file base : Settings) : Settings where
  check := { file.check with threads := file.check.threads.or base.check.threads }
  sessions := file.sessions
  output := file.output
  files := {
    extensions := listOr base.files.extensions file.files.extensions
    includePatterns := listOr base.files.includePatterns file.files.includePatterns
    excludePatterns := listOr base.files.excludePatterns file.files.excludePatterns
    maxDepth := file.files.maxDepth.or base.files.maxDepth }
  vocabulary := file.vocabulary.or base.vocabulary

/-! ## Check -/

/-- The largest number of documents that may be checked at the same time. -/
def maxThreads : Nat := 1000

/-- Whether a text can be the extension of a file. -/
def isExtension (e : String) : Bool :=
  !e.isEmpty && e.toList.all fun c => c != '/' && c != '\\' && c != '.'

/-- Whether the name of a file tells that it holds a vocabulary. -/
def isVocabularyPath (path : String) : Bool :=
  match PathText.extension? path with
  | some e => e == "toml" || e == "json"
  | none => false

/-- What is wrong with settings: the first of the demands that they do not meet. -/
def complaint? (s : Settings) : Option String :=
  if s.check.threads == some 0 then some "Number of threads must be greater than 0"
  else if s.check.threads.any (maxThreads < ·) then some "Number of threads cannot exceed 1000"
  else if s.check.timeout == 0 then some "Timeout must be greater than 0"
  else if s.sessions.maxSessions == 0 then some "Maximum number of sessions must be greater than 0"
  else if s.sessions.timeToLive == 0 then some "Session TTL must be greater than 0"
  else if s.output.verbose && s.output.quiet then some "Cannot enable both verbose and quiet modes"
  else if s.files.extensions.isEmpty then some "At least one file extension must be specified"
  else
    match s.files.extensions.find? fun e => !isExtension e with
    | some e => some ("Invalid file extension: " ++ Text.quoted e)
    | none =>
      match s.vocabulary with
      | some path =>
        if isVocabularyPath path then none
        else some ("Vocabulary file must be .toml or .json: " ++ path)
      | none => none

/-- Refuses settings with which the program cannot run. -/
def checked (s : Settings) : Except SettingsFault Settings :=
  match s.complaint? with
  | some complaint => .error (.invalid complaint)
  | none => .ok s

/-! ## Reading -/

/-- The largest number that a setting can have. -/
def maxNumber : Nat := 0xFFFFFFFFFFFFFFFF

/-- Reads a number. -/
def number? (v : Json) : Option Nat := v.nat? maxNumber

/-- Reads the name of a format. -/
def format? : String → Option Format
  | "human" => some .human
  | "json" => some .json
  | "summary" => some .summary
  | _ => none

/-- Reads how documents are checked. -/
def check? (format : DataFormat) (v : Json) : Option CheckSettings :=
  match format.record? ["threads", "timeout_seconds", "fail_on_reports", "show_progress"] v with
  | some [threads, timeout, failOnReports, showProgress] => do
    let usual : CheckSettings := {}
    return {
      threads := ← Json.fieldOr usual.threads (Json.nullOr number?) threads
      timeout := ← Json.fieldOr usual.timeout number? timeout
      failOnReports := ← Json.fieldOr usual.failOnReports Json.bool? failOnReports
      showProgress := ← Json.fieldOr usual.showProgress Json.bool? showProgress }
  | _ => none

/-- Reads how sessions are kept. -/
def sessions? (format : DataFormat) (v : Json) : Option SessionSettings :=
  match format.record? ["max_sessions", "idle_ttl_seconds"] v with
  | some [maxSessions, timeToLive] => do
    let usual : SessionSettings := {}
    return {
      maxSessions := ← Json.fieldOr usual.maxSessions number? maxSessions
      timeToLive := ← Json.fieldOr usual.timeToLive number? timeToLive }
  | _ => none

/-- Reads how results are shown. -/
def output? (format : DataFormat) (v : Json) : Option OutputSettings :=
  match format.record? ["format", "verbose", "quiet"] v with
  | some [outputFormat, verbose, quiet] => do
    let usual : OutputSettings := {}
    return {
      format := ← Json.fieldOr usual.format (fun v => (format.choice? v).bind format?) outputFormat
      verbose := ← Json.fieldOr usual.verbose Json.bool? verbose
      quiet := ← Json.fieldOr usual.quiet Json.bool? quiet }
  | _ => none

/-- Reads which files are documents. -/
def files? (format : DataFormat) (v : Json) : Option FileSettings :=
  match format.record? ["extensions", "include_patterns", "exclude_patterns", "max_depth"] v with
  | some [extensions, includePatterns, excludePatterns, maxDepth] => do
    let usual : FileSettings := {}
    return {
      extensions := ← Json.fieldOr usual.extensions Json.strings? extensions
      includePatterns := ← Json.fieldOr usual.includePatterns Json.strings? includePatterns
      excludePatterns := ← Json.fieldOr usual.excludePatterns Json.strings? excludePatterns
      maxDepth := ← Json.fieldOr usual.maxDepth (Json.nullOr number?) maxDepth }
  | _ => none

/-- Reads the path of a file with a vocabulary. -/
def vocabulary? (format : DataFormat) (v : Json) : Option (Option String) :=
  match format.record? ["path"] v with
  | some [path] => Json.fieldOr none (Json.nullOr Json.string?) path
  | _ => none

/-- Reads settings; what is missing has the value that holds by default. -/
def ofJson? (format : DataFormat) (v : Json) : Option Settings :=
  match format.record? ["validation", "sessions", "output", "files", "vocabulary"] v with
  | some [check, sessions, output, files, vocabulary] => do
    return {
      check := ← Json.fieldOr {} (check? format) check
      sessions := ← Json.fieldOr {} (sessions? format) sessions
      output := ← Json.fieldOr {} (output? format) output
      files := ← Json.fieldOr {} (files? format) files
      vocabulary := ← Json.fieldOr none (vocabulary? format) vocabulary }
  | _ => none

/-- Reads the settings that a text writes. -/
def parse? (format : DataFormat) (text : String) : Option Settings :=
  (format.parse? text).bind (ofJson? format)

end Settings

end HAtom

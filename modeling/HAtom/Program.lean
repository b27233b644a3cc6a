import HAtom.Batch.Run
import HAtom.Settings.Load
import HAtom.Vocabulary.Usual

/-!
# The program

From words, environment and files to texts on a terminal and a status: reads the words, loads the
settings, then lists keywords, or checks documents and shows what came of it. Clock and terminal are
parameters, so that all of it can be run without either.

* `Program.run` is the whole program.
* `Program.check` is the part of it that checks documents.
* `Program.progressLine` is how progress is shown.
-/

namespace HAtom

/-- What the program sees. -/
structure Surroundings where
  files : FileTree
  environment : Environment
  /-- Whether the terminal shows colours. -/
  colors : Bool
  processors : Nat

/-- What the program can do: read a clock in nanoseconds and write to two channels. -/
structure Terminal (m : Type → Type) where
  now : m Nat
  write : String → m Unit
  warn : String → m Unit

/-- The status with which the program ends. -/
inductive ExitStatus
  | success
  /-- Something was found to report, or the words cannot be followed. -/
  | failure
  /-- Nothing could be checked. -/
  | trouble
  /-- The program broke down. -/
  | crash
  deriving DecidableEq, Repr

/-- The number for a status. -/
def ExitStatus.code : ExitStatus → Nat
  | success => 0
  | failure => 1
  | trouble => 2
  | crash => 101

namespace Program

/-! ## Texts -/

/-- The name of the program and its version. -/
def versionText : String := "validate-hatom 0.2.0\n"

/-- How the program is used. -/
def usageText : String :=
  "Validate hAtom 0.1 / hCard microformats embedded in XHTML documents\n\n" ++
    "Usage: validate-hatom [OPTIONS] [PATH]\n"

/-- What is said about words that say nothing. -/
def complaint : ArgumentFault → String
  | .help => ""
  | .version => ""
  | .missing => "error: a required argument is missing\n"
  | .unknown => "error: unexpected argument\n"
  | .conflict => "error: arguments cannot be used together\n"
  | .badNumber => "error: invalid number for an option\n"
  | .badValue => "error: missing or invalid value for an option\n"
  | .surplusValue => "error: unexpected value for a flag\n"

/-- A number of files in percent of another, whole ones only. -/
def percent (count total : Nat) : Nat :=
  let share := ((Ratio.ofNat count).divNat total).nearest
  (share.mul (.ofNat 100)).nearest.floor

/-- How progress is shown: each text takes the place of the one before it, and the last one ends the
line. -/
def progressLine (verbosity : Verbosity) (p : Progress) : String :=
  if verbosity == .quiet || p.total == 0 then ""
  else
    let file :=
      match p.file with
      | some file => if verbosity.isVerbose then " - Processing: " ++ file else ""
      | none => ""
    "\rProgress: " ++ toString p.completed ++ "/" ++ toString p.total ++ " (" ++
      toString (percent p.completed p.total) ++ "%)" ++ file ++
      (if p.completed == p.total then "\n" else "")

/-! ## Running -/

variable {m : Type → Type} [Monad m]

/-- Writes a text to the second channel and ends with a status. -/
def give (t : Terminal m) (text : String) (exit : ExitStatus) : m ExitStatus := do
  t.warn text
  return exit

/-- Who watches the batch of a program: progress is shown when that is chosen. -/
def watch (t : Terminal m) (s : Settings) : Watch m where
  now := t.now
  tell p :=
    if s.check.showProgress && p.stage == .validation then t.warn (progressLine s.verbosity p)
    else pure ()

/-- Checks the documents below a path and shows the results. -/
def check (t : Terminal m) (around : Surroundings) (s : Settings) (path : String) :
    m ExitStatus := do
  match Registry.open? s.sessions.maxSessions s.sessions.timeToLive with
  | .error message => give t (message ++ "\n") .crash
  | .ok registry =>
    match Discovery.ofSettings s.files with
    | .error f => give t ("Error: " ++ f.message ++ "\n") .failure
    | .ok discovery =>
      let concurrent := s.concurrency around.processors
      match ← Batch.run (watch t s) discovery around.files concurrent path registry with
      | (.error f, _) =>
        match f.explain s.verbosity with
        | some text => give t (text ++ "\n") .trouble
        | none => return .trouble
      | (.ok summary, _) =>
        t.write ((s.display around.colors).results summary)
        return if summary.hasErrors && s.check.failOnReports then .failure else .success

/-- Does what arguments ask for. -/
def serve (t : Terminal m) (around : Surroundings) (a : Arguments) : m ExitStatus := do
  match a.complaint? around.files with
  | some message => give t ("Error: " ++ message ++ "\n") .failure
  | none =>
    match Settings.load around.files around.environment a with
    | .error fault => give t (fault.explain a.verbosity ++ "\n") .trouble
    | .ok s =>
      if a.listKeywords then
        let vocabulary := Vocabulary.loadOr .usual around.files s.vocabulary
        t.write (vocabulary.listing (a.keywordStart.getD ""))
        return .success
      else
        match a.path with
        | some path => check t around s path
        | none => give t "Error: No path to validate\n" .failure

/-- Runs the program on the words that follow its name. -/
def run (t : Terminal m) (around : Surroundings) (words : List String) : m ExitStatus := do
  match Arguments.read words with
  | .error .help =>
    t.write usageText
    return .success
  | .error .version =>
    t.write versionText
    return .success
  | .error fault => give t (complaint fault) .trouble
  | .ok a => serve t around a

end Program

end HAtom

import HAtom.Settings
import HAtom.Text.Digit
import HAtom.Text.Case

/-!
# Settings from the environment

The variables of the environment that choose settings. A variable that is set must have a meaning,
even when the arguments of the program make another choice.

* `Settings.withEnvironment` lays the choices of the environment over settings.
-/

namespace HAtom

/-- The variables of the environment that are set, with their values. -/
abbrev Environment := List (String × String)

namespace Settings

/-- The fault of a variable whose value means nothing. -/
def badVariable (name value : String) : SettingsFault :=
  .environment ("Invalid " ++ name ++ " value: " ++ value)

/-- Reads a truth value, written in lower case. -/
def truth? : String → Option Bool
  | "true" => some true
  | "false" => some false
  | _ => none

/-- Changes settings by a variable if that is set. -/
def byVariable {α : Type} (env : Environment) (name : String) (read : String → Option α)
    (change : Settings → α → Settings) (s : Settings) : Except SettingsFault Settings :=
  match env.lookup name with
  | none => .ok s
  | some value =>
    match read value with
    | some a => .ok (change s a)
    | none => .error (badVariable name value)

/-- Reads a number with blanks around it. -/
def numberVariable? (value : String) : Option Nat := Text.number? maxNumber (Text.trim value)

/-- Reads a truth value with blanks around it. -/
def truthVariable? (value : String) : Option Bool := truth? (Text.trim value)

/-- The texts between commas without the blanks around them, those that are not empty. -/
def listVariable (value : String) : List String :=
  ((Text.splitOn ',' value).map Text.trim).filter fun e => !e.isEmpty

/-- The names of the variables that choose settings. -/
def variableNames : List String :=
  ["VALIDATE_HATOM_THREADS", "VALIDATE_HATOM_TIMEOUT", "VALIDATE_HATOM_FAIL_ON_REPORTS",
    "VALIDATE_HATOM_MAX_SESSIONS", "VALIDATE_HATOM_SESSION_TTL", "VALIDATE_HATOM_VERBOSE",
    "VALIDATE_HATOM_QUIET", "VALIDATE_HATOM_FORMAT", "VALIDATE_HATOM_EXTENSIONS",
    "VALIDATE_HATOM_VOCABULARY"]

/-- The choices of the environment over settings. Variables are read in a fixed order, and the first
one without a meaning is the fault. -/
def withEnvironment (env : Environment) (s : Settings) : Except SettingsFault Settings := do
  let s ← byVariable env "VALIDATE_HATOM_THREADS" numberVariable?
    (fun s n => { s with check.threads := some n }) s
  let s ← byVariable env "VALIDATE_HATOM_TIMEOUT" numberVariable?
    (fun s n => { s with check.timeout := n }) s
  let s ← byVariable env "VALIDATE_HATOM_FAIL_ON_REPORTS" truthVariable?
    (fun s b => { s with check.failOnReports := b }) s
  let s ← byVariable env "VALIDATE_HATOM_MAX_SESSIONS" numberVariable?
    (fun s n => { s with sessions.maxSessions := n }) s
  let s ← byVariable env "VALIDATE_HATOM_SESSION_TTL" numberVariable?
    (fun s n => { s with sessions.timeToLive := n }) s
  let s ← byVariable env "VALIDATE_HATOM_VERBOSE" truthVariable?
    (fun s b => { s with output.verbose := b }) s
  let s ← byVariable env "VALIDATE_HATOM_QUIET" truthVariable?
    (fun s b => { s with output.quiet := b }) s
  let s ← byVariable env "VALIDATE_HATOM_FORMAT" (fun value => format? (Text.lower value))
    (fun s f => { s with output.format := f }) s
  let s ← byVariable env "VALIDATE_HATOM_EXTENSIONS" (fun value => some (listVariable value))
    (fun s es => { s with files.extensions := es }) s
  byVariable env "VALIDATE_HATOM_VOCABULARY" some (fun s path => { s with vocabulary := some path }) s

end Settings

end HAtom

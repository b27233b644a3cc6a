import HAtom.Arguments
import HAtom.Settings.Environment

/-!
# Loading settings

Brings the layers of settings together: what holds by default, a file, the environment and the
arguments, each over those before it.

* `Settings.ofFile` reads the settings in a file.
* `Settings.withArguments` lays the choices of arguments over settings.
* `Settings.load` does it all.
-/

namespace HAtom.Settings

/-! ## Files -/

/-- What is said about a text that writes no settings. -/
def notSettings : String := "not a text with settings"

/-- Reads settings that a text writes in a format. -/
def ofText (format : DataFormat) (text : String) : Except SettingsFault Settings :=
  match format, parse? format text with
  | _, some s => .ok s
  | .json, none => .error (.json notSettings)
  | .toml, none => .error (.toml notSettings)

/-- Reads the settings in a file. The extension of its name tells the format; without an extension it
is TOML, or else JSON. -/
def ofFile (files : FileTree) (path : String) : Except SettingsFault Settings :=
  match files.readText path with
  | .error fault => .error (.io fault)
  | .ok text =>
    match PathText.extension? path with
    | some "toml" => ofText .toml text
    | some "json" => ofText .json text
    | some e => .error (.unsupported e)
    | none =>
      match ofText .toml text with
      | .ok s => .ok s
      | .error _ => ofText .json text

/-- The names under which a file with settings is looked for. -/
def fileNames : List String :=
  ["validate-hatom.toml", "validate-hatom.json", ".validate-hatom.toml", ".validate-hatom.json"]

/-- The names of the variables that tell where settings of all programs are. -/
def placeNames : List String := ["XDG_CONFIG_HOME", "HOME"]

/-- The directory for settings of all programs. -/
def sharedDirectory? (env : Environment) : Option String :=
  match (env.lookup "XDG_CONFIG_HOME").filter PathText.isAbsolute with
  | some path => some path
  | none =>
    ((env.lookup "HOME").filter fun home => !home.isEmpty).map fun home =>
      PathText.join home ".config"

/-- The paths at which a file with settings is looked for: in the working directory, and then in the
directory of this program among those of all programs. -/
def candidates (env : Environment) : List String :=
  let shared :=
    match sharedDirectory? env with
    | some directory => fileNames.map fun name => PathText.below directory ["validate-hatom", name]
    | none => []
  fileNames ++ shared

/-- The path of the file with settings: the one that is asked for, or else the first one that there
is. -/
def path? (files : FileTree) (env : Environment) (a : Arguments) : Option String :=
  match a.settings with
  | some path => some path
  | none => (candidates env).find? files.has

/-! ## Arguments -/

/-- The choices of arguments over settings. -/
def withArguments (a : Arguments) (s : Settings) : Settings where
  check := {
    threads := a.threads.or s.check.threads
    timeout := a.timeout.getD s.check.timeout
    failOnReports := s.check.failOnReports && !a.noFail
    showProgress := s.check.showProgress || a.progress }
  sessions := { s.sessions with maxSessions := a.maxSessions.getD s.sessions.maxSessions }
  output := {
    format := a.format.getD s.output.format
    verbose := if a.quiet then false else a.verbose || s.output.verbose
    quiet := if a.quiet then true else !a.verbose && s.output.quiet }
  files := {
    extensions := a.extensionList.getD s.files.extensions
    includePatterns := listOr s.files.includePatterns a.includePatterns
    excludePatterns := listOr s.files.excludePatterns a.excludePatterns
    maxDepth := a.maxDepth.or s.files.maxDepth }
  vocabulary := a.vocabulary.or s.vocabulary

/-! ## All layers -/

/-- The settings for a run of the program. -/
def load (files : FileTree) (env : Environment) (a : Arguments) :
    Except SettingsFault Settings := do
  let s ←
    match path? files env a with
    | some path => (ofFile files path).map fun s => s.laidOver initial
    | none => pure initial
  (withArguments a (← withEnvironment env s)).checked

end HAtom.Settings

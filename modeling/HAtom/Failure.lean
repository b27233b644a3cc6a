import HAtom.IoFault
import HAtom.Registry

/-!
# Failures

What keeps documents from being checked, and how it is explained: what is wrong in one sentence, and
with growing verbosity also where, what to do about it, and every cause down to the first.

* `Failure` is the cause, `Failure.message` the sentence.
* `SettingsFault` says why there are no settings to work with.
* `Failure.explain` and `SettingsFault.explain` are the texts for a level of verbosity.
-/

namespace HAtom

/-- How much is said. -/
inductive Verbosity
  | quiet
  | normal
  | verbose
  | debug
  deriving DecidableEq, Repr

/-- Whether every report and measure is shown. -/
def Verbosity.isVerbose : Verbosity → Bool
  | verbose => true
  | debug => true
  | _ => false

/-- The least level of messages that goes to the log. -/
def Verbosity.logLevel : Verbosity → String
  | quiet => "error"
  | normal => "warn"
  | verbose => "info"
  | debug => "debug"

/-! ## Settings -/

/-- Why there are no settings to work with. -/
inductive SettingsFault
  | io (fault : IoFault)
  | toml (details : String)
  | json (details : String)
  /-- A setting is out of its range. -/
  | invalid (details : String)
  /-- A variable of the environment has no meaning. -/
  | environment (details : String)
  /-- The name of the file does not tell its format. -/
  | unsupported (extension : String)
  deriving DecidableEq, Repr

namespace SettingsFault

/-- The sentence that describes the fault. -/
def message : SettingsFault → String
  | io fault => "IO error: " ++ fault.message
  | toml details => "TOML parsing error: " ++ details
  | json details => "JSON parsing error: " ++ details
  | invalid details => "Configuration validation error: " ++ details
  | environment details => "Environment variable error: " ++ details
  | unsupported extension => "Unsupported configuration file format: " ++ extension

/-- The cause and its parts. -/
def detail : SettingsFault → String
  | io fault => "Io(" ++ fault.detail ++ ")"
  | toml details => "TomlParsing(" ++ Text.quoted details ++ ")"
  | json details => "JsonParsing(" ++ Text.quoted details ++ ")"
  | invalid details => "Validation(" ++ Text.quoted details ++ ")"
  | environment details => "Environment(" ++ Text.quoted details ++ ")"
  | unsupported extension => "UnsupportedFormat(" ++ Text.quoted extension ++ ")"

/-- What can be done about the fault. -/
def advice : SettingsFault → String
  | io _ => "Check that the configuration file is readable"
  | toml _ => "Check the configuration file syntax (TOML/JSON format expected)"
  | json _ => "Check the configuration file syntax (TOML/JSON format expected)"
  | invalid _ => "Fix the invalid value in the configuration file, environment or command line"
  | environment _ => "Check the VALIDATE_HATOM_* environment variables"
  | unsupported _ => "Use a .toml or .json configuration file"

/-- The text for a level of verbosity. -/
def explain (verbosity : Verbosity) (fault : SettingsFault) : String :=
  match verbosity with
  | .quiet => "Config error: " ++ fault.message
  | .debug =>
    "Configuration Error: " ++ fault.message ++ "\nDebug: " ++ fault.detail ++ "\n" ++ fault.advice
  | _ => "Configuration Error: " ++ fault.message ++ "\n" ++ fault.advice

end SettingsFault

/-! ## Vocabularies -/

/-- Why a vocabulary could not be loaded. -/
inductive VocabularyFault
  | missing (path : String)
  | unreadable (path : String) (fault : IoFault)
  | malformed (details : String)
  deriving DecidableEq, Repr

/-- The sentence that describes the fault. -/
def VocabularyFault.message : VocabularyFault → String
  | missing path => "Vocabulary file not found: " ++ path
  | unreadable path fault => "Unable to read vocabulary file " ++ path ++ ": " ++ fault.message
  | malformed details => "Invalid vocabulary format: " ++ details

/-! ## Checks -/

/-- What keeps documents from being checked. -/
inductive Failure
  | io (fault : IoFault)
  | session (fault : SessionFault)
  /-- No session is registered for a document. -/
  | noSession (document : String)
  | settings (details : String)
  | vocabulary (details : String)
  /-- A path leads to nothing in which documents can be looked for. -/
  | traversal (path reason : String)
  /-- Checks that run side by side got in each other's way. -/
  | concurrency (details : String)
  deriving DecidableEq, Repr

namespace Failure

/-- The failure that a fault of the settings is. -/
def ofSettings (fault : SettingsFault) : Failure := settings fault.message

/-- The failure that a fault of a vocabulary is. -/
def ofVocabulary (fault : VocabularyFault) : Failure := vocabulary fault.message

/-- The sentence that describes the failure. -/
def message : Failure → String
  | io fault => "IO error: " ++ fault.message
  | session fault => fault.message
  | noSession document => Registry.missingMessage document
  | settings details => "Configuration error: " ++ details
  | vocabulary details => "Vocabulary error: " ++ details
  | traversal path reason => "File system traversal error: " ++ path ++ " - " ++ reason
  | concurrency details => "Concurrent operation error: " ++ details

/-- The name of a part and its form. -/
def part (name value : String) : String := name ++ ": " ++ value

/-- A name with named parts. -/
def named (name : String) (parts : List String) : String :=
  name ++ " \x7b " ++ ", ".intercalate parts ++ " \x7d"

/-- The cause and its parts. -/
def detail : Failure → String
  | io fault => "Io(" ++ fault.detail ++ ")"
  | session (.unreadable document fault) =>
    named "Parse" [part "document" (Text.quoted document), part "source" fault.detail]
  | session (.used document) => named "EngineReused" [part "document" (Text.quoted document)]
  | noSession document => named "SessionNotFound" [part "document" (Text.quoted document)]
  | settings details => "Config(" ++ Text.quoted details ++ ")"
  | vocabulary details => "Vocabulary(" ++ Text.quoted details ++ ")"
  | traversal path reason =>
    named "FileSystemTraversal"
      [part "path" (Text.quotedPath path), part "reason" (Text.quoted reason)]
  | concurrency details => named "Concurrency" [part "details" (Text.quoted details)]

/-- The causes behind a failure, the nearest first. -/
def causes : Failure → List String
  | io fault => [fault.message]
  | session (.unreadable _ (.encoding fault)) =>
    [(Markup.Fault.encoding fault).message, fault.message]
  | session (.unreadable _ (.malformed fault)) => [fault.message, fault.message]
  | _ => []

/-- Whether a failure is told even when hardly anything is. -/
def isCritical : Failure → Bool
  | settings _ => true
  | traversal _ _ => true
  | concurrency _ => true
  | _ => false

/-- Where the failure is and what can be done about it. -/
def hints : Failure → String
  | session (.unreadable document (.encoding _)) =>
    "\nDocument: " ++ document ++ "\nSuggestion: Save the document as UTF-8"
  | session (.unreadable document (.malformed _)) =>
    "\nDocument: " ++ document ++
      "\nSuggestion: hAtom validation needs well-formed XHTML, check unclosed tags and entities"
  | session (.used _) => "\nSuggestion: Create a new engine for every validation pass"
  | vocabulary _ => "\nSuggestion: Check the vocabulary file path and its TOML/JSON syntax"
  | traversal path _ => "\nPath: " ++ path
  | _ => ""

/-- The causes on numbered lines. -/
def numbered : Nat → List String → String
  | _, [] => ""
  | n, cause :: rest => "\n  " ++ toString n ++ ": " ++ cause ++ numbered (n + 1) rest

/-- The text for a level of verbosity, if anything is said. -/
def explain (verbosity : Verbosity) (failure : Failure) : Option String :=
  match verbosity with
  | .quiet => if failure.isCritical then some ("ERROR: " ++ failure.message) else none
  | .normal => some failure.message
  | .verbose => some (failure.message ++ failure.hints)
  | .debug =>
    some (failure.message ++ failure.hints ++ "\nDebug Info: " ++ failure.detail ++
      "\nError Chain:" ++ numbered 1 failure.causes)

end Failure

end HAtom

import HAtom.Batch.Display
import HAtom.FileTree
import HAtom.Text.Digit

/-!
# Arguments of the program

The words that follow the name of the program: a path, flags, and options with a value. A flag or an
option has a long name after two dashes, and some have a letter after one; letters of flags can be
written together, and a value can be attached. The word of two dashes ends flags and options.

* `Arguments` is what the words say, and `Arguments.read` reads them.
* `ArgumentFault` says why they say nothing. Asking for help or for the version is among these.
* `Arguments.extensionList` are the extensions that are asked for.
-/

namespace HAtom

/-- What the words after the name of the program say. -/
structure Arguments where
  /-- The file or directory to check. -/
  path : Option String := none
  extensions : Option String := none
  threads : Option Nat := none
  verbose : Bool := false
  quiet : Bool := false
  /-- The path of a file with settings. -/
  settings : Option String := none
  format : Option Format := none
  includePatterns : List String := []
  excludePatterns : List String := []
  maxDepth : Option Nat := none
  timeout : Option Nat := none
  maxSessions : Option Nat := none
  /-- The path of a file with a vocabulary. -/
  vocabulary : Option String := none
  progress : Bool := false
  noFail : Bool := false
  /-- Whether to list keywords and check nothing. -/
  listKeywords : Bool := false
  /-- What the keywords in the list start with. -/
  keywordStart : Option String := none
  deriving DecidableEq, Repr

/-- Why words say nothing. -/
inductive ArgumentFault
  /-- The words ask for help. -/
  | help
  /-- The words ask for the version. -/
  | version
  /-- Something that is needed is missing. -/
  | missing
  /-- There is no such flag or option, or no use for the word. -/
  | unknown
  /-- Flags do not go together, or something is given twice. -/
  | conflict
  /-- A value is not a number as it should be. -/
  | badNumber
  /-- A value is missing, or is none of those that are possible. -/
  | badValue
  /-- A flag has a value. -/
  | surplusValue
  deriving DecidableEq, Repr

namespace Arguments

/-! ## Names -/

/-- What can be given without a value. -/
inductive Flag
  | verbose
  | quiet
  | progress
  | noFail
  | listKeywords
  | help
  | version
  deriving DecidableEq, Repr

/-- What has a value. -/
inductive Slot
  | path
  | extensions
  | threads
  | settings
  | format
  | includePattern
  | excludePattern
  | maxDepth
  | timeout
  | maxSessions
  | vocabulary
  | keywordStart
  deriving DecidableEq, Repr

/-- What a name stands for. -/
inductive Meaning
  | flag (f : Flag)
  | option (s : Slot)
  deriving DecidableEq, Repr

/-- What a letter stands for. -/
def ofLetter? : Char → Option Meaning
  | 'v' => some (.flag .verbose)
  | 'q' => some (.flag .quiet)
  | 'h' => some (.flag .help)
  | 'V' => some (.flag .version)
  | 'e' => some (.option .extensions)
  | 't' => some (.option .threads)
  | 'c' => some (.option .settings)
  | 'f' => some (.option .format)
  | _ => none

/-- What a long name stands for. -/
def ofName? : String → Option Meaning
  | "verbose" => some (.flag .verbose)
  | "quiet" => some (.flag .quiet)
  | "progress" => some (.flag .progress)
  | "no-fail" => some (.flag .noFail)
  | "list-keywords" => some (.flag .listKeywords)
  | "help" => some (.flag .help)
  | "version" => some (.flag .version)
  | "extensions" => some (.option .extensions)
  | "threads" => some (.option .threads)
  | "config" => some (.option .settings)
  | "format" => some (.option .format)
  | "include" => some (.option .includePattern)
  | "exclude" => some (.option .excludePattern)
  | "max-depth" => some (.option .maxDepth)
  | "timeout" => some (.option .timeout)
  | "max-sessions" => some (.option .maxSessions)
  | "vocabulary" => some (.option .vocabulary)
  | "keyword-prefix" => some (.option .keywordStart)
  | _ => none

/-- Whether an option may be given again. -/
def Slot.isRepeatable : Slot → Bool
  | includePattern => true
  | excludePattern => true
  | _ => false

/-! ## Values -/

/-- The largest number that an option can have. -/
def maxNumber : Nat := 0xFFFFFFFFFFFFFFFF

/-- A number as a value. -/
def number (value : String) : Except ArgumentFault Nat :=
  match Text.number? maxNumber value with
  | some n => .ok n
  | none => .error .badNumber

/-- A path as a value; it is not empty. -/
def pathValue (value : String) : Except ArgumentFault String :=
  if value.isEmpty then .error .badValue else .ok value

/-- A format as a value. -/
def formatValue : String → Except ArgumentFault Format
  | "human" => .ok .human
  | "json" => .ok .json
  | "summary" => .ok .summary
  | _ => .error .badValue

/-- Enters the value of an option. -/
def enter (a : Arguments) (value : String) : Slot → Except ArgumentFault Arguments
  | .path => do return { a with path := some (← pathValue value) }
  | .extensions => .ok { a with extensions := some value }
  | .threads => do return { a with threads := some (← number value) }
  | .settings => do return { a with settings := some (← pathValue value) }
  | .format => do return { a with format := some (← formatValue value) }
  | .includePattern => .ok { a with includePatterns := a.includePatterns ++ [value] }
  | .excludePattern => .ok { a with excludePatterns := a.excludePatterns ++ [value] }
  | .maxDepth => do return { a with maxDepth := some (← number value) }
  | .timeout => do return { a with timeout := some (← number value) }
  | .maxSessions => do return { a with maxSessions := some (← number value) }
  | .vocabulary => do return { a with vocabulary := some (← pathValue value) }
  | .keywordStart => .ok { a with keywordStart := some value }

/-- Raises a flag that is not raised yet. -/
def raise (a : Arguments) : Flag → Except ArgumentFault Arguments
  | .verbose => if a.verbose then .error .conflict else .ok { a with verbose := true }
  | .quiet => if a.quiet then .error .conflict else .ok { a with quiet := true }
  | .progress => if a.progress then .error .conflict else .ok { a with progress := true }
  | .noFail => if a.noFail then .error .conflict else .ok { a with noFail := true }
  | .listKeywords => if a.listKeywords then .error .conflict else .ok { a with listKeywords := true }
  | .help => .error .help
  | .version => .error .version

/-! ## Reading -/

/-- How far the words have been read. -/
structure Reading where
  found : Arguments := {}
  /-- The options that have been entered. -/
  entered : List Slot := []
  /-- An option that waits for its value, or whose value waits to be entered: a value is looked at
  when the next flag, option or path is known to be one. -/
  pending : Option (Slot × Option String) := none
  /-- Whether the path has been given. -/
  hasPath : Bool := false
  /-- Whether flags and options have ended. -/
  ended : Bool := false

namespace Reading

/-- Enters the value of an option, which must be the first one unless it is repeatable. -/
def enter (r : Reading) (slot : Slot) (value : String) : Except ArgumentFault Reading :=
  if r.entered.contains slot && !slot.isRepeatable then .error .conflict
  else do return { r with found := ← r.found.enter value slot, entered := slot :: r.entered }

/-- Enters what waits. -/
def settle (r : Reading) : Except ArgumentFault Reading :=
  match r.pending with
  | none => .ok r
  | some (_, none) => .error .badValue
  | some (slot, some value) => { r with pending := none }.enter slot value

/-- Raises a flag after what waits has been entered. -/
def raise (r : Reading) (f : Flag) : Except ArgumentFault Reading := do
  let r ← r.settle
  return { r with found := ← r.found.raise f }

/-- Reads an option with the value attached to it, or waits for one. -/
def option (r : Reading) (slot : Slot) (attached : Option String) :
    Except ArgumentFault Reading := do
  let r ← r.settle
  match attached with
  | some value => r.enter slot value
  | none => return { r with pending := some (slot, none) }

/-- Reads the letters of a word after its dash. -/
def letters (r : Reading) : List Char → Except ArgumentFault Reading
  | [] => .ok r
  | c :: rest =>
    match ofLetter? c with
    | none => .error .unknown
    | some (.flag f) => do (← r.raise f).letters rest
    | some (.option slot) =>
      match rest with
      | [] => r.option slot none
      | '=' :: value => r.option slot (some (String.ofList value))
      | value => r.option slot (some (String.ofList value))

/-- Reads a long name with what is attached to it. -/
def name (r : Reading) (word : List Char) : Except ArgumentFault Reading :=
  let attached :=
    match word.dropWhile (· != '=') with
    | [] => none
    | _ :: value => some (String.ofList value)
  match ofName? (String.ofList (word.takeWhile (· != '='))) with
  | none => .error .unknown
  | some (.flag f) => if attached.isSome then .error .surplusValue else r.raise f
  | some (.option slot) => r.option slot attached

/-- Reads a word that is no flag and no option. -/
def plain (r : Reading) (word : String) : Except ArgumentFault Reading :=
  if r.hasPath then .error .unknown
  else do
    let r ← r.settle
    return { r with hasPath := true, pending := some (.path, some word) }

/-- Reads a word that can be the value of an option. -/
def value (r : Reading) (word : String) : Except ArgumentFault Reading :=
  match r.pending with
  | some (slot, none) => .ok { r with pending := some (slot, some word) }
  | _ => r.plain word

/-- Reads a word. -/
def word (r : Reading) (w : String) : Except ArgumentFault Reading :=
  if r.ended then r.plain w
  else
    match w.toList with
    | ['-', '-'] => .ok { r with ended := true }
    | '-' :: '-' :: rest => r.name rest
    | '-' :: c :: rest => r.letters (c :: rest)
    | _ => r.value w

end Reading

/-- The arguments that go together: not both verbose and quiet, and something to do. -/
def complete (a : Arguments) : Except ArgumentFault Arguments :=
  if a.verbose && a.quiet then .error .conflict
  else if a.keywordStart.isSome && !a.listKeywords then .error .missing
  else if a.path.isNone && !a.listKeywords then .error .missing
  else .ok a

/-- Reads the words after the name of the program. -/
def read (words : List String) : Except ArgumentFault Arguments := do
  let r ← words.foldlM Reading.word {}
  (← r.settle).found.complete

/-! ## What is asked for -/

/-- How much is said. -/
def verbosity (a : Arguments) : Verbosity :=
  if a.quiet then .quiet else if a.verbose then .verbose else .normal

/-- The form in which an extension is looked for: without blanks around it and points before it, in
lower case. -/
def extensionForm (e : String) : String :=
  Text.lower (String.ofList ((Text.trimChars e.toList).dropWhile (· == '.')))

/-- The extensions that a list with commas asks for. -/
def extensionForms (e : String) : List String :=
  ((Text.splitOn ',' e).map extensionForm).filter fun e => !e.isEmpty

/-- The extensions that are asked for. -/
def extensionList (a : Arguments) : Option (List String) := a.extensions.map extensionForms

/-- What is wrong with the arguments where the program works. -/
def complaint? (a : Arguments) (files : FileTree) : Option String :=
  match a.path.filter fun path => !files.has path with
  | some path => some ("Path does not exist: " ++ path)
  | none =>
    if a.threads == some 0 then some "Number of threads must be greater than 0" else none

end Arguments

end HAtom

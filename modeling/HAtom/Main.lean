import HAtom.Program

/-!
# Running the program

Takes a picture of the files that the program may look at, and runs the program on it.
-/

namespace HAtom.Main

/-- Why a file could not be read. -/
def faultOf : IO.Error → IoFault
  | .noFileOrDirectory _ _ _ => .missing
  | .permissionDenied _ _ _ => .denied
  | e => .reported .other (toString e)

/-- Whether a name in a directory is a link. -/
def isLink (e : IO.FS.DirEntry) : IO Bool := do
  match (← e.path.symlinkMetadata).type with
  | .symlink => return true
  | _ => return false

/-- A picture of what a name stands for. Files have their content if their path is wanted. -/
partial def picture (wanted : String → Bool) (path : String) (e : IO.FS.DirEntry) : IO Entry := do
  match (← e.path.metadata).type with
  | .dir =>
    let mut entries := []
    for inner in ← e.path.readDir do
      try
        let entry ←
          if ← isLink inner then pure (Entry.link inner.fileName)
          else picture wanted (PathText.join path inner.fileName) inner
        entries := (inner.fileName, entry) :: entries
      catch _ => pure ()
    return .directory entries
  | .file =>
    if wanted path then
      try return .file (.ok (← IO.FS.readBinFile e.path).toList)
      catch fault => return .file (.error (faultOf fault))
    else return .file (.ok [])
  | _ => return .device

/-- Adds to a tree of files what a path leads to, if it leads anywhere. -/
def add (wanted : String → Bool) (files : FileTree) (path : String) : IO FileTree := do
  try return files.put path (← picture wanted path ⟨".", path⟩)
  catch _ => return files

/-- The variables with these names that are set. -/
def environment (names : List String) : IO Environment :=
  names.filterMapM fun name => do return (← IO.getEnv name).map fun value => (name, value)

/-- The number of processors. -/
def processors : IO Nat := do
  try
    let lines ← IO.FS.lines "/proc/cpuinfo"
    return max 1 (lines.toList.countP fun line => Text.startsWith line "processor")
  catch _ => return 1

/-- The test for paths whose files have to be read, given the files with settings. -/
def wanted (files : FileTree) (env : Environment) (a : Arguments) : String → Bool :=
  match Settings.load files env a with
  | .error _ => fun _ => false
  | .ok s =>
    match Discovery.ofSettings s.files with
    | .error _ => fun _ => false
    | .ok d => d.accepts

/-- The files that the program may look at. -/
def filesFor (env : Environment) (a : Arguments) : IO FileTree := do
  let all (_ : String) : Bool := true
  let workplace := PathText.components (← IO.FS.realPath ".").toString
  let nothing : FileTree := ⟨[], workplace⟩
  let nothing := nothing.put "." (.directory [])
  let settings := a.settings.toList ++ Settings.candidates env
  let chosen ← settings.foldlM (add all) nothing
  let vocabulary :=
    match Settings.load chosen env a with
    | .ok s => s.vocabulary.toList
    | .error _ => []
  let documents ← a.path.toList.foldlM (add (wanted chosen env a)) nothing
  (settings ++ vocabulary).foldlM (add all) documents

end HAtom.Main

open HAtom in
/-- Runs the program on the words that follow its name. -/
def main (words : List String) : IO UInt32 := do
  let env ← Main.environment (Settings.variableNames ++ Settings.placeNames)
  let files ←
    match Arguments.read words with
    | .ok a => Main.filesFor env a
    | .error _ => pure ⟨[], []⟩
  let colors ← (← IO.getStdout).isTty
  let around : Surroundings := ⟨files, env, colors, ← Main.processors⟩
  let terminal : Terminal IO := ⟨IO.monoNanosNow, IO.print, IO.eprint⟩
  return (← Program.run terminal around words).code.toUInt32

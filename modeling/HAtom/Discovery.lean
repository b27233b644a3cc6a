import HAtom.Failure
import HAtom.FileTree
import HAtom.Glob
import HAtom.Settings

/-!
# Discovery of documents

Finds the documents below a path: the files whose names have one of some extensions, and whose paths
fit the patterns. Directories are searched to a bound; links in them are passed over unless they are
to be followed.

* `Discovery.ofSettings` reads the patterns of settings.
* `Discovery.accepts` says whether a path is one of a document.
* `Discovery.documents` finds the documents in a tree of files.
-/

namespace HAtom

/-- What documents are, and where they are looked for. -/
structure Discovery where
  /-- Extensions in lower case. -/
  extensions : List String := ["html", "xhtml", "htm"]
  /-- Patterns of which a document fits one, if there are any. -/
  including : List Glob := []
  /-- Patterns of which a document fits none. -/
  excluding : List Glob := []
  /-- How many directories deep documents are looked for, if there is a bound. -/
  maxDepth : Option Nat := none
  /-- Whether links are followed. -/
  followLinks : Bool := false

namespace Discovery

/-! ## Documents -/

/-- Reads patterns; the first one that is none is a fault of the settings. -/
def patterns (texts : List String) : Except Failure (List Glob) :=
  texts.mapM fun text =>
    match Glob.parse text with
    | .ok g => .ok g
    | .error fault =>
      .error (.settings ("Invalid glob pattern '" ++ text ++ "': error parsing glob '" ++ text ++
        "': " ++ fault.message))

/-- The documents that settings ask for. -/
def ofSettings (s : FileSettings) : Except Failure Discovery := do
  let including ← patterns s.includePatterns
  let excluding ← patterns s.excludePatterns
  return {
    extensions := s.extensions.map Text.lower
    including
    excluding
    maxDepth := s.maxDepth }

/-- Whether a path is one of a document. -/
def accepts (d : Discovery) (path : String) : Bool :=
  ((PathText.extension? path).any fun e => d.extensions.contains (Text.lower e)) &&
    !(d.excluding.any fun g => g.accepts path) &&
    (d.including.isEmpty || d.including.any fun g => g.accepts path)

/-! ## Search -/

/-- What a search has found. -/
structure Found where
  /-- The documents, each as the names that lead to it. -/
  documents : List (List String)
  /-- The number of entries that could not be looked at. -/
  errors : Nat
  deriving DecidableEq, Repr

namespace Found

/-- Nothing. -/
def none : Found := ⟨[], 0⟩

/-- An entry that could not be looked at. -/
def unseen : Found := ⟨[], 1⟩

/-- What two searches have found. -/
def and (a b : Found) : Found := ⟨a.documents ++ b.documents, a.errors + b.errors⟩

end Found

/-- Whether directories at a depth are searched. -/
def goesBelow (d : Discovery) (depth : Nat) : Bool := d.maxDepth.all (depth < ·)

mutual

/-- Searches what is at the end of some names below a path. Links are left to `jump`. -/
def search (d : Discovery) (path : String) (jump : List String → Nat → Found) :
    Entry → List String → Nat → Found
  | .file _, names, _ =>
    if d.accepts (PathText.below path names) then ⟨[names], 0⟩ else .none
  | .directory entries, names, depth =>
    if d.goesBelow depth then searchAll d path jump entries names (depth + 1) else .none
  | .link _, names, depth => jump names depth
  | .device, _, _ => .none

/-- Searches the entries of a directory. The system does not look at the end of a path that is too
long. -/
def searchAll (d : Discovery) (path : String) (jump : List String → Nat → Found) :
    List (String × Entry) → List String → Nat → Found
  | [], _, _ => .none
  | (name, e) :: rest, names, depth =>
    (if FileTree.isTooLong (PathText.below path (names ++ [name])) then .unseen
      else search d path jump e (names ++ [name]) depth).and (searchAll d path jump rest names depth)

end

/-- Searches what links lead to, through a number of links at most. -/
def follow (d : Discovery) (files : FileTree) (path : String) : Nat → List String → Nat → Found
  | 0, _, _ => .unseen
  | links + 1, names, depth =>
    match files.look (PathText.below path names) with
    | .ok e => search d path (follow d files path links) e names depth
    | .error _ => .unseen

/-- Searches the entries of the directory at the end of a path. -/
def below (d : Discovery) (files : FileTree) (path : String) (entries : Directory) : Found :=
  let jump :=
    if d.followLinks then follow d files path FileTree.maxLinks.succ else fun _ _ => .none
  searchAll d path jump entries [] 0

/-- The paths of the documents that a search has found, in order. -/
def paths (path : String) (found : Found) : List String :=
  (found.documents.mergeSort PathText.namesLe).map (PathText.below path)

/-- The documents at the end of a path or below it, with the number of entries that could not be
looked at. -/
def documents (d : Discovery) (files : FileTree) (path : String) :
    Except Failure (List String × Nat) :=
  match files.look path with
  | .error fault => .error (.io fault)
  | .ok (.file _) => .ok (if d.accepts path then [path] else [], 0)
  | .ok (.directory entries) =>
    let found := d.below files path entries
    .ok (paths path found, found.errors)
  | .ok _ => .error (.traversal path "neither a file nor a directory")

end Discovery

end HAtom

import HAtom.Text.Words

/-!
# Paths as text

A path is a text whose parts are separated by slashes. Nothing here looks at files.

* `parts` are the texts between slashes, `components` those that count.
* `extension?` is what stands after the last point of the name at the end of a path.
* `below` joins a path and the names that lead on from it.
* `namesLe` is the order of lists of names by their first difference.
-/

namespace HAtom.PathText

/-- The texts between the slashes of a path. -/
def parts (path : String) : List String := Text.splitOn '/' path

/-- Whether a path starts at the root of all files. -/
def isAbsolute (path : String) : Bool := Text.startsWith path "/"

/-- The parts that count: without empty ones, and without the sign for the same directory. -/
def components (path : String) : List String :=
  (parts path).filter fun part => !part.isEmpty && part != "."

/-- The name at the end of a path, unless it leads up there. -/
def fileName? (path : String) : Option String :=
  match (components path).getLast? with
  | some ".." => none
  | name? => name?

/-- What stands after the last point of a name. A point at the start of a name does not count. -/
def nameExtension? (name : String) : Option String :=
  let chars := name.toList
  let after := (chars.reverse.takeWhile (· != '.')).reverse
  if after.length + 1 < chars.length then some (String.ofList after) else none

/-- What stands after the last point of the name at the end of a path. -/
def extension? (path : String) : Option String := (fileName? path).bind nameExtension?

/-- The path to which a path leads on by a name. -/
def join (path name : String) : String :=
  if path.toList.getLast? == some '/' then path ++ name else path ++ "/" ++ name

/-- The path to which a path leads on by names. -/
def below (path : String) (names : List String) : String := names.foldl join path

/-- Whether a list of names comes before another or is the same: their first difference decides, and
a list comes before one that goes on after it. -/
def namesLe : List String → List String → Bool
  | [], _ => true
  | _ :: _, [] => false
  | a :: as, b :: bs => if a == b then namesLe as bs else decide (a < b)

end HAtom.PathText

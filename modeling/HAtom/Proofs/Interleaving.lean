import HAtom.Proofs.Verdict
import Mathlib.Logic.Relation

/-!
# Checks at the same time

Documents are checked at the same time, on one registry. A check takes a few steps: it waits for
room, reads the file, registers a session, and makes the check in that session. The steps of several
checks may come in any order, and a session may be replaced or make room before the check is made in
it. Still no check hears of the others: the session that it has registered is known to itself alone.

* `Job` is a check as far as it has come, `Job.step` what it does next.
* `Pool` is a number of jobs with their registry. `Pool.Moves` is a step of one job, and
  `Pool.Reaches` any steps of any jobs.
* `Pool.Apart` is the invariant: every registered session is new, and no two jobs have the same one.
* `Pool.busy_le_of_reaches`: room is kept.
* `Pool.answers_alone`: what jobs answer, and that all of them do.

Times and progress are left out.
-/

namespace HAtom

/-! ## Jobs -/

/-- How far the check of a document has come. -/
inductive Job.State
  /-- There has to be room for the job first. -/
  | waiting
  | admitted
  /-- There is no text to check. -/
  | barred (obstacle : Batch.Obstacle)
  | holding (text : String)
  /-- The session with a number was made for the job. -/
  | registered (text : String) (number : Nat)
  | answered (answer : Except SessionFault (List Report))

/-- The check of one document. -/
structure Job where
  name : String
  /-- The nanoseconds that the check in the session takes. -/
  elapsed : Nat
  state : Job.State

namespace Job

/-- A check of a file, which has to wait for room. -/
def ofPath (path : String) : Job := ⟨path, 0, .waiting⟩

/-- A check of a text under a name. -/
def ofText (name text : String) (elapsed : Nat) : Job := ⟨name, elapsed, .holding text⟩

/-- The next step of a job. -/
def step (files : FileTree) (r : Registry) (j : Job) : Job × Registry :=
  match j.state with
  | .waiting => ({ j with state := .admitted }, r)
  | .admitted =>
    match Batch.textOf files j.name with
    | .error obstacle => ({ j with state := .barred obstacle }, r)
    | .ok text => ({ j with state := .holding text }, r)
  | .holding text =>
    let (number, r) := r.create j.name
    ({ j with state := .registered text number }, r)
  | .registered text number =>
    let (answer, r) := r.checkIn number text j.elapsed
    ({ j with state := .answered answer }, r)
  | .barred _ | .answered _ => (j, r)

/-- Whether there is nothing left to do. -/
def isDone (j : Job) : Bool :=
  match j.state with
  | .barred _ | .answered _ => true
  | _ => false

/-- Whether the job waits for room. -/
def isWaiting (j : Job) : Bool :=
  match j.state with
  | .waiting => true
  | _ => false

/-- Whether the job takes up room. -/
def isBusy (j : Job) : Bool := !j.isWaiting && !j.isDone

/-- The most steps that are left. -/
def left (j : Job) : Nat :=
  match j.state with
  | .waiting => 4
  | .admitted => 3
  | .holding _ => 2
  | .registered _ _ => 1
  | .barred _ | .answered _ => 0

/-- The number of the session that the job is to use. -/
def number? (j : Job) : Option Nat :=
  match j.state with
  | .registered _ number => some number
  | _ => none

/-- What came of the file, once the job is done. -/
def result? (j : Job) : Option FileResult :=
  match j.state with
  | .barred (.failure f) => some (.failed j.name f 0)
  | .barred .blank => some (.skipped j.name Batch.blankReason 0)
  | .answered answer => some (Batch.resultOf j.name answer)
  | _ => none

/-! ## One job alone -/

/-- What comes of a job when all its steps are made one after another. -/
def finish (files : FileTree) (r : Registry) (j : Job) : Job × Registry :=
  (fun x => x.1.step files x.2)^[4] (j, r)

/-- A check of a text in one go. -/
theorem finish_ofText (files : FileTree) (r : Registry) (name text : String) (elapsed : Nat) :
    (ofText name text elapsed).finish files r =
      (⟨name, elapsed, .answered (r.check name text elapsed).1⟩, (r.check name text elapsed).2) := rfl

/-- A check of a file in one go. -/
theorem finish_ofPath (w : Watch Id) (files : FileTree) (path : String) (r : Registry) :
    ((ofPath path).finish files r).1.result? =
        some (Batch.checkFile w files path r).run.1.untimed ∧
      ((ofPath path).finish files r).2 = (Batch.checkFile w files path r).run.2 := by
  cases htext : Batch.textOf files path with
  | error obstacle =>
    have hfinish : (ofPath path).finish files r = (⟨path, 0, .barred obstacle⟩, r) := by
      simp only [finish, Function.iterate_succ_apply, ofPath, step, htext, Function.iterate_zero_apply]
    rw [hfinish, Batch.checkFile, htext]
    cases obstacle <;> exact ⟨rfl, rfl⟩
  | ok text =>
    have hfinish : (ofPath path).finish files r = (ofText path text 0).finish files r := by
      simp only [finish, Function.iterate_succ_apply, ofPath, ofText, step, htext,
        Function.iterate_zero_apply]
    rw [hfinish, finish_ofText, Batch.checkFile, htext]
    rcases hcheck : r.check path text 0 with ⟨fault | reports, r'⟩ <;> simp only [hcheck] <;>
      exact ⟨rfl, rfl⟩

/-! ## What a step of a job does -/

/-- What a new session answers to a text. -/
def alone (j : Job) (text : String) : Except SessionFault (List Report) :=
  Registry.checkAnswer (Session.new j.name) text j.elapsed

/-- What the job will answer if nobody interferes. -/
def promise (files : FileTree) (j : Job) :
    Except Batch.Obstacle (Except SessionFault (List Report)) :=
  match j.state with
  | .waiting | .admitted => (Batch.textOf files j.name).map j.alone
  | .barred obstacle => .error obstacle
  | .holding text | .registered text _ => .ok (j.alone text)
  | .answered answer => .ok answer

/-- The session that the job is to use is new. -/
def IsFresh (r : Registry) (j : Job) : Prop :=
  ∀ number, j.number? = some number → r.session? number = some (Session.new j.name)

/-- What a step does to the job and to the sessions of the others. -/
structure Steps (files : FileTree) (r : Registry) (j : Job) (after : Job × Registry) : Prop where
  name : after.1.name = j.name
  promise : after.1.promise files = j.promise files
  fresh : after.1.IsFresh after.2
  /-- A number that the job gets is that of no session so far. -/
  number : ∀ number, after.1.number? = some number → r.session? number = none
  others : ∀ number s, r.session? number = some s → j.number? ≠ some number →
    after.2.session? number = some s

variable {files : FileTree} {r : Registry} {j : Job}

/-- A step that neither registers a session nor uses one. -/
theorem Steps.still {j' : Job} (hname : j'.name = j.name)
    (hpromise : j'.promise files = j.promise files) (hnumber : j'.number? = none) :
    Steps files r j (j', r) where
  name := hname
  promise := hpromise
  fresh := fun number h => by rw [hnumber] at h; cases h
  number := fun number h => by rw [hnumber] at h; cases h
  others := fun _ _ hs _ => hs

/-- **A step of a job** keeps its promise, if its session is new, and leaves the sessions of the others
as they are. -/
theorem steps_step (h : j.IsFresh r) : Steps files r j (j.step files r) := by
  obtain ⟨name, elapsed, state⟩ := j
  cases state with
  | waiting => exact .still rfl rfl rfl
  | admitted =>
    simp only [step]
    cases htext : Batch.textOf files name with
    | error obstacle =>
      refine .still rfl ?_ rfl
      simp only [promise, htext, Except.map]
    | ok text =>
      refine .still rfl ?_ rfl
      simp only [promise, htext, Except.map, alone]
  | barred obstacle => exact .still rfl rfl rfl
  | answered answer => exact .still rfl rfl rfl
  | holding text =>
    constructor
    case name => rfl
    case promise => rfl
    case fresh =>
      intro number hnumber
      obtain rfl : (r.create name).1 = number := Option.some.inj hnumber
      exact Registry.session?_create_new r name
    case number =>
      intro number hnumber
      obtain rfl : r.sessions.length = number := Option.some.inj hnumber
      exact List.getElem?_eq_none le_rfl
    case others =>
      intro number s hs _
      have hne : number ≠ r.sessions.length := (Registry.number_lt hs).ne
      exact (Registry.session?_create r name number).trans ((if_neg hne).trans hs)
  | registered text number =>
    have hs : r.session? number = some (Session.new name) := h number rfl
    constructor
    case name => rfl
    case promise => simp only [step, Registry.checkIn_of_session hs, promise, alone]
    case fresh =>
      intro k hk
      cases hk
    case number =>
      intro k hk
      cases hk
    case others =>
      intro k s hk hother
      have hne : k ≠ number := fun hkn => hother (congrArg some hkn.symm)
      exact (Registry.session?_checkIn hs text elapsed k).trans ((if_neg hne).trans hk)

/-- A step brings a job closer to its end. -/
theorem left_step (files : FileTree) (r : Registry) (h : j.isDone = false) :
    (j.step files r).1.left < j.left := by
  obtain ⟨name, elapsed, state⟩ := j
  cases state with
  | waiting => exact Nat.lt_succ_self 3
  | admitted =>
    simp only [step]
    cases Batch.textOf files name with
    | error obstacle => exact Nat.zero_lt_succ 2
    | ok text => exact Nat.lt_succ_self 2
  | holding text => exact Nat.lt_succ_self 1
  | registered text number => exact Nat.lt_succ_self 0
  | barred obstacle => cases h
  | answered answer => cases h

/-! ## What a job that is done has answered -/

/-- An answer is the one that was promised. -/
theorem state_eq_answered {answer : Except SessionFault (List Report)}
    (hdone : j.isDone) (hpromise : j.promise files = .ok answer) : j.state = .answered answer := by
  obtain ⟨name, elapsed, state⟩ := j
  cases state with
  | barred obstacle => cases hpromise
  | answered given => exact congrArg State.answered (Except.ok.inj hpromise)
  | _ => cases hdone

/-- A result is the one that was promised. -/
theorem result?_eq_verdict {path : String} (hname : j.name = path)
    (hpromise : j.promise files = (ofPath path).promise files) (hdone : j.isDone) :
    j.result? = some (Batch.verdict files path) := by
  subst hname
  obtain ⟨name, elapsed, state⟩ := j
  change _ = (Batch.textOf files name).map _ at hpromise
  unfold Batch.verdict
  cases htext : Batch.textOf files name with
  | error obstacle =>
    rw [htext] at hpromise
    cases state with
    | barred o =>
      obtain rfl : o = obstacle := Except.error.inj hpromise
      cases o <;> rfl
    | answered answer => cases hpromise
    | _ => cases hdone
  | ok text =>
    rw [htext] at hpromise
    cases state with
    | barred o => cases hpromise
    | answered answer =>
      have hanswer : answer = Registry.checkAnswer (Session.new name) text 0 :=
        Except.ok.inj hpromise
      change some (Batch.resultOf name answer) = some (Batch.verdictOnText name text)
      rw [hanswer, Batch.resultOf_checkAnswer]
    | _ => cases hdone

end Job

/-! ## Jobs together -/

/-- Jobs that share a registry. -/
structure Pool where
  jobs : List Job
  registry : Registry

/-- A text that is to be checked under a name. -/
structure Call where
  name : String
  text : String
  /-- The nanoseconds that the check takes. -/
  elapsed : Nat

namespace Pool

/-- Texts that are to be checked in a registry. -/
def ofCalls (r : Registry) (calls : List Call) : Pool :=
  ⟨calls.map fun c => .ofText c.name c.text c.elapsed, r⟩

/-- Files that are to be checked in a registry. -/
def ofPaths (r : Registry) (paths : List String) : Pool := ⟨paths.map .ofPath, r⟩

/-- How many jobs take up room. -/
def busy (p : Pool) : Nat := p.jobs.countP Job.isBusy

/-- Whether a job may make its next step when there is room for a number of jobs. -/
def Allows (limit : Nat) (p : Pool) (j : Job) : Prop :=
  j.isDone = false ∧ (j.isWaiting → p.busy < limit)

/-- A step of one job, any one that may go on. -/
inductive Moves (files : FileTree) (limit : Nat) (p : Pool) : Pool → Prop
  | step {i : Nat} {j : Job} (hj : p.jobs[i]? = some j) (hmay : p.Allows limit j) :
    Moves files limit p ⟨p.jobs.set i (j.step files p.registry).1, (j.step files p.registry).2⟩

/-- Any number of steps, of any jobs. -/
def Reaches (files : FileTree) (limit : Nat) : Pool → Pool → Prop :=
  Relation.ReflTransGen (Moves files limit)

/-- No job can go on. -/
def Rests (files : FileTree) (limit : Nat) (p : Pool) : Prop := ∀ p', ¬Moves files limit p p'

/-- The invariant: the registered sessions are new, and each of them is that of one job. -/
structure Apart (p : Pool) : Prop where
  fresh : ∀ {i : Nat} {j : Job}, p.jobs[i]? = some j → j.IsFresh p.registry
  numbers : ∀ {i i' : Nat} {j j' : Job} {number : Nat}, p.jobs[i]? = some j →
    p.jobs[i']? = some j' → j.number? = some number → j'.number? = some number → i = i'

variable {files : FileTree} {limit : Nat} {p p' : Pool}

/-- Jobs that begin without a session are apart. -/
theorem apart_map {α : Type} {start : α → Job} (h : ∀ x, (start x).number? = none) (xs : List α)
    (r : Registry) : Apart ⟨xs.map start, r⟩ := by
  have hnone : ∀ {i : Nat} {j : Job} {number : Nat}, (xs.map start)[i]? = some j →
      j.number? ≠ some number := by
    intro i j number hj hnumber
    obtain ⟨x, -, rfl⟩ := List.mem_map.1 (List.mem_of_getElem? hj)
    rw [h x] at hnumber
    cases hnumber
  exact ⟨fun hj _ hnumber => absurd hnumber (hnone hj), fun hj _ hnumber _ =>
    absurd hnumber (hnone hj)⟩

/-- A job after a step of one: that one, or another as it was. -/
theorem getElem?_set_cases {jobs : List Job} {i k : Nat} {j j' : Job}
    (h : (jobs.set i j)[k]? = some j') : k = i ∧ j' = j ∨ k ≠ i ∧ jobs[k]? = some j' := by
  rw [List.getElem?_set] at h
  by_cases hk : i = k
  · rw [if_pos hk] at h
    split at h
    · exact .inl ⟨hk.symm, (Option.some.inj h).symm⟩
    · cases h
  · rw [if_neg hk] at h
    exact .inr ⟨Ne.symm hk, h⟩

/-- **A step of a pool** keeps jobs apart. -/
theorem Apart.moves (h : p.Apart) (hmove : Moves files limit p p') : p'.Apart := by
  obtain @⟨i, j, hj, hmay⟩ := hmove
  have hsteps : Job.Steps files p.registry j (j.step files p.registry) := Job.steps_step (h.fresh hj)
  -- the number that the job may get is not that of any job so far
  have hnew : ∀ {k : Nat} {j' : Job} {number : Nat}, p.jobs[k]? = some j' →
      (j.step files p.registry).1.number? = some number → j'.number? ≠ some number := by
    intro k j' number hj' hnumber hnumber'
    have hnone := hsteps.number number hnumber
    rw [h.fresh hj' number hnumber'] at hnone
    cases hnone
  constructor
  case fresh =>
    intro k j' hk
    obtain ⟨rfl, rfl⟩ | ⟨hne, hj'⟩ := getElem?_set_cases hk
    · exact hsteps.fresh
    · intro number hnumber
      have hother : j.number? ≠ some number := fun hown => hne (h.numbers hj' hj hnumber hown)
      exact hsteps.others number _ (h.fresh hj' number hnumber) hother
  case numbers =>
    intro k k' j₁ j₂ number hk hk' hnumber hnumber'
    obtain ⟨rfl, rfl⟩ | ⟨hne, hj₁⟩ := getElem?_set_cases hk <;>
      obtain ⟨rfl, rfl⟩ | ⟨hne', hj₂⟩ := getElem?_set_cases hk'
    · rfl
    · exact absurd hnumber' (hnew hj₂ hnumber)
    · exact absurd hnumber (hnew hj₁ hnumber')
    · exact h.numbers hj₁ hj₂ hnumber hnumber'

/-- What the jobs of a pool have promised. -/
def promises (files : FileTree) (p : Pool) :
    List (String × Except Batch.Obstacle (Except SessionFault (List Report))) :=
  p.jobs.map fun j => (j.name, j.promise files)

theorem promises_moves (h : p.Apart) (hmove : Moves files limit p p') :
    p'.promises files = p.promises files := by
  obtain @⟨i, j, hj, hmay⟩ := hmove
  have hsteps : Job.Steps files p.registry j (j.step files p.registry) := Job.steps_step (h.fresh hj)
  obtain ⟨hi, rfl⟩ := List.getElem?_eq_some_iff.1 hj
  have hsame : ((p.jobs.set i p.jobs[i]).map fun j => (j.name, j.promise files)) =
      p.promises files := by
    rw [List.set_getElem_self, promises]
  rw [← hsame, promises, List.map_set, hsteps.name, hsteps.promise, List.map_set]

/-- **A run of a pool** keeps jobs apart, and they keep their promises. -/
theorem Apart.reaches (h : p.Apart) (hreaches : Reaches files limit p p') :
    p'.Apart ∧ p'.promises files = p.promises files := by
  induction hreaches with
  | refl => exact ⟨h, rfl⟩
  | tail _ hmove ih => exact ⟨ih.1.moves hmove, (promises_moves ih.1 hmove).trans ih.2⟩

/-! ## Room -/

theorem Moves.busy_le (h : Moves files limit p p') (hbusy : p.busy ≤ limit) : p'.busy ≤ limit := by
  obtain @⟨i, j, hj, hdone, hroom⟩ := h
  obtain ⟨hi, rfl⟩ := List.getElem?_eq_some_iff.1 hj
  have hcount := List.countP_set (p := Job.isBusy) (a := (p.jobs[i].step files p.registry).1) hi
  unfold busy at hbusy hroom ⊢
  by_cases hwaiting : p.jobs[i].isWaiting
  · have hlt := hroom hwaiting
    rw [hcount]
    split_ifs <;> omega
  · have hatwork : p.jobs[i].isBusy := by simp [Job.isBusy, hwaiting, hdone]
    have hpos : 0 < p.jobs.countP Job.isBusy :=
      List.countP_pos_iff.2 ⟨_, List.getElem_mem hi, hatwork⟩
    rw [hcount, if_pos hatwork]
    split_ifs <;> omega

/-- **No more checks of files are at work than there is room for.** -/
theorem busy_le_of_reaches {r : Registry} {paths : List String}
    (h : (ofPaths r paths).Reaches files limit p) : p.busy ≤ limit := by
  induction h with
  | refl =>
    have hidle : (ofPaths r paths).busy = 0 := by
      simp [ofPaths, busy, List.countP_eq_zero, Job.isBusy, Job.isWaiting, Job.ofPath]
    omega
  | tail _ hmove ih => exact hmove.busy_le ih

/-! ## The end of a run -/

/-- The most steps that are left. -/
def left (p : Pool) : Nat := (p.jobs.map Job.left).sum

theorem sum_set_lt {jobs : List Job} {i : Nat} {j j' : Job} (hj : jobs[i]? = some j)
    (h : j'.left < j.left) : ((jobs.set i j').map Job.left).sum < (jobs.map Job.left).sum := by
  induction jobs generalizing i with
  | nil => cases hj
  | cons first rest ih =>
    cases i with
    | zero =>
      obtain rfl : first = j := Option.some.inj hj
      simp only [List.set_cons_zero, List.map_cons, List.sum_cons]
      omega
    | succ i =>
      have hrest := ih (i := i) hj
      simp only [List.set_cons_succ, List.map_cons, List.sum_cons]
      omega

theorem Moves.left_lt (h : Moves files limit p p') : p'.left < p.left := by
  obtain ⟨hj, hdone, -⟩ := h
  exact sum_set_lt hj (Job.left_step files p.registry hdone)

/-- No run goes on forever. -/
theorem wellFounded_moves (files : FileTree) (limit : Nat) :
    WellFounded fun p' p => Moves files limit p p' :=
  Subrelation.wf Moves.left_lt (measure left).wf

/-- Every run can be led to its end. -/
theorem exists_rests (files : FileTree) (limit : Nat) (p : Pool) :
    ∃ p', p.Reaches files limit p' ∧ p'.Rests files limit := by
  induction p using (wellFounded_moves files limit).induction with
  | _ p ih =>
    by_cases hrests : p.Rests files limit
    · exact ⟨p, .refl, hrests⟩
    · obtain ⟨next, hnext⟩ := not_forall_not.1 hrests
      obtain ⟨p', hreaches, hrests'⟩ := ih next hnext
      exact ⟨p', .head hnext hreaches, hrests'⟩

/-- When no job can go on, and there is room for one at all, every job is done. -/
theorem Rests.isDone (h : p.Rests files limit) (hlimit : 0 < limit) : ∀ j ∈ p.jobs, j.isDone := by
  -- a job that takes up room could go on
  have hidle : ∀ j ∈ p.jobs, ¬j.isBusy := by
    intro j hj hbusy
    obtain ⟨i, hi⟩ := List.getElem?_of_mem hj
    simp only [Job.isBusy, Bool.and_eq_true, Bool.not_eq_true'] at hbusy
    exact h _ (.step hi ⟨hbusy.2, fun hwaiting => by simp [hbusy.1] at hwaiting⟩)
  have hroom : p.busy < limit := by
    rw [busy, List.countP_eq_zero.2 hidle]
    exact hlimit
  intro j hj
  obtain ⟨i, hi⟩ := List.getElem?_of_mem hj
  by_contra hdone
  exact h _ (.step hi ⟨Bool.not_eq_true _ ▸ hdone, fun _ => hroom⟩)

/-! ## What jobs answer -/

/-- The jobs of a run are those that it began with, and promise what these did. -/
theorem forall₂_of_promises {α : Type} {start : α → Job} {xs : List α} {r : Registry}
    (h : p.promises files = promises files ⟨xs.map start, r⟩) :
    List.Forall₂ (fun j x => j.name = (start x).name ∧ j.promise files = (start x).promise files)
      p.jobs xs := by
  rw [promises, promises, List.map_map, ← List.forall₂_eq_eq_eq, List.forall₂_map_left_iff,
    List.forall₂_map_right_iff] at h
  exact h.imp fun j x hx => ⟨congrArg Prod.fst hx, congrArg Prod.snd hx⟩

/-- A check of a text answers what it would answer in a registry of its own. -/
theorem calls_answer {r : Registry} {calls : List Call}
    (h : (ofCalls r calls).Reaches files limit p) :
    List.Forall₂ (fun j c => j.name = c.name ∧ (j.isDone → ∀ capacity elapsed,
      j.state = .answered ((Registry.empty capacity).check c.name c.text elapsed).1))
      p.jobs calls := by
  have hpromises := forall₂_of_promises ((apart_map (fun _ => rfl) calls r).reaches h).2
  refine hpromises.imp fun j c hj => ⟨hj.1, fun hdone capacity elapsed => ?_⟩
  have hanswer : j.promise files =
      .ok (Registry.checkAnswer (Session.new c.name) c.text c.elapsed) := hj.2
  rw [Job.state_eq_answered hdone hanswer, Registry.checkAnswer_new, Registry.check_fst]

/-- A check of a file finds its verdict. -/
theorem paths_answer {r : Registry} {paths : List String}
    (h : (ofPaths r paths).Reaches files limit p) :
    List.Forall₂ (fun j path => j.isDone → j.result? = some (Batch.verdict files path))
      p.jobs paths :=
  (forall₂_of_promises ((apart_map (fun _ => rfl) paths r).reaches h).2).imp fun _ _ hj =>
    Job.result?_eq_verdict hj.1 hj.2

/-- **Checks at the same time do not meet**, in whatever order their steps come, on a registry of any
size and with any sessions in it, and with room for any number of checks. A check of a text that is
done has answered what it would have answered alone in a registry without sessions, which is never
that its session was used before. A check of a file finds what comes of the file alone. No run goes
on forever; and when it can go no further, every check is done, so that there is a result for every
file, in the order of the files. -/
theorem answers_alone (files : FileTree) (concurrent : Nat) (r : Registry) :
    let limit := max concurrent 1
    WellFounded (fun p' p => Moves files limit p p') ∧
      (∀ p : Pool, p.Rests files limit → ∀ j ∈ p.jobs, j.isDone) ∧
      (∀ calls p, (ofCalls r calls).Reaches files limit p →
        List.Forall₂ (fun j c => j.name = c.name ∧ (j.isDone → ∀ capacity elapsed,
          j.state = .answered ((Registry.empty capacity).check c.name c.text elapsed).1))
          p.jobs calls) ∧
      (∀ (c : Call) capacity elapsed other,
        ((Registry.empty capacity).check c.name c.text elapsed).1 ≠ .error (.used other)) ∧
      (∀ paths p, (ofPaths r paths).Reaches files limit p →
        List.Forall₂ (fun j path => j.isDone → j.result? = some (Batch.verdict files path))
          p.jobs paths ∧
        (p.Rests files limit →
          p.jobs.map Job.result? = paths.map fun path => some (Batch.verdict files path))) ∧
      ∀ (w : Watch Id) path capacity,
        (Batch.checkFile w files path (.empty capacity)).run.1.untimed =
          Batch.verdict files path := by
  intro limit
  have hrests : ∀ p : Pool, p.Rests files limit → ∀ j ∈ p.jobs, j.isDone := fun p hp =>
    hp.isDone (Nat.lt_of_lt_of_le Nat.one_pos (Nat.le_max_right ..))
  refine ⟨wellFounded_moves files limit, hrests, fun calls p => calls_answer, ?_,
    fun paths p hreaches => ⟨paths_answer hreaches, fun hp => ?_⟩, fun w path capacity => ?_⟩
  · intro c capacity elapsed other h
    rw [Registry.check_fst] at h
    split at h <;> cases h
  · have hall : List.Forall₂ (fun j path => j.result? = some (Batch.verdict files path))
        p.jobs paths :=
      ((List.forall₂_and_left ..).2 ⟨hrests p hp, paths_answer hreaches⟩).imp fun _ _ h => h.2 h.1
    rwa [← List.forall₂_eq_eq_eq, List.forall₂_map_left_iff, List.forall₂_map_right_iff]
  · obtain ⟨found, hfound⟩ := Batch.satisfies_checkFile w files path (.empty capacity)
    rw [← hfound]
    exact found.run.property

/-- Two checks under one name where there is room for one session: the session of the second one has
taken the place of that of the first one when the checks are made. -/
theorem answers_alone_replaced :
    let files : FileTree := ⟨[], []⟩
    let calls : List Call := [⟨"page", "<", 0⟩, ⟨"page", "<p/>", 0⟩]
    ∃ between p, (ofCalls (.empty 1) calls).Reaches files 1 between ∧
      between.jobs.map Job.number? = [some 0, some 1] ∧
      between.registry.entries = [("page", 1)] ∧ between.Reaches files 1 p ∧
      List.Forall₂ (fun j c => j.state = .answered ((Registry.empty 1).check c.name c.text 0).1)
        p.jobs calls := by
  intro files calls
  let one : Registry := ((Registry.empty 1).create "page").2
  let first : Job := ⟨"page", 0, .registered "<" 0⟩
  let second : Job := ⟨"page", 0, .registered "<p/>" 1⟩
  let between : Pool := ⟨[first, second], (one.create "page").2⟩
  have hfirst : Moves files 1 (ofCalls (.empty 1) calls) ⟨[first, .ofText "page" "<p/>" 0], one⟩ :=
    .step (i := 0) (j := .ofText "page" "<" 0) rfl ⟨rfl, fun h => absurd h Bool.false_ne_true⟩
  have hsecond : Moves files 1 ⟨[first, .ofText "page" "<p/>" 0], one⟩ between :=
    .step (i := 1) (j := .ofText "page" "<p/>" 0) rfl ⟨rfl, fun h => absurd h Bool.false_ne_true⟩
  have hbetween : (ofCalls (.empty 1) calls).Reaches files 1 between := .tail (.single hfirst) hsecond
  obtain ⟨p, hp, hrests⟩ := exists_rests files 1 between
  obtain ⟨-, hdone, hcalls, -⟩ := answers_alone files 1 (.empty 1)
  have hanswers := (List.forall₂_and_left ..).2 ⟨hdone p hrests, hcalls calls p (hbetween.trans hp)⟩
  exact ⟨between, p, hbetween, rfl, rfl, hp, hanswers.imp fun _ _ h => h.2.2 h.1 1 0⟩

end Pool

end HAtom

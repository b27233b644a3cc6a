import HAtom.Proofs.ExitStatus
import HAtom.Proofs.Precedence

/-!
# When the program breaks down

Settings that are loaded meet all demands, but none of these bounds the time for which an unused
session is kept, while the registry of sessions refuses to keep one for more than a thousand years.
That is all that makes the program break down.

* `Program.run_breakdown`: the program breaks down exactly when it gets so far as to build the
  registry and the time is too long.
* `Settings.not_forall_checked_open`: the demands let such settings pass.
-/

namespace HAtom

namespace Registry

/-- The registry is there exactly when the time to live is not too long. -/
theorem exists_open?_iff (capacity timeToLive : Nat) :
    (∃ r, open? capacity timeToLive = .ok r) ↔ timeToLive ≤ maxTimeToLive := by
  unfold open?
  split <;> simp [*]

end Registry

/-- Settings that pass all demands and with which no registry can be built. -/
theorem Settings.not_forall_checked_open :
    ¬∀ s : Settings, s.checked = .ok s →
      ∃ r, Registry.open? s.sessions.maxSessions s.sessions.timeToLive = .ok r := by
  intro h
  let s : Settings := { sessions := { timeToLive := 31536000001 } }
  have hopen := (Registry.exists_open?_iff _ _).1 (h s rfl)
  exact absurd hopen (by decide)

namespace Program

variable {m : Type → Type} [Monad m] {t : Terminal m} {around : Surroundings}
  {words : List String} {a : Arguments} {s : Settings}

/-- The settings of a program that has begun meet all demands. -/
theorem Begun.workable (h : Begun around words a s) : s.Workable := by
  obtain ⟨-, -, -, hworkable, -⟩ := Settings.load_eq_ok_iff.1 h.load
  exact hworkable

/-- Too long a time ends the check of documents before anything else is done. -/
theorem check_of_overlong (hlong : Registry.maxTimeToLive < s.sessions.timeToLive)
    (path : String) :
    check t around s path = give t "time_to_idle is longer than 1000 years\n" .crash := by
  simp only [check, Registry.open?, if_neg (Nat.not_le.2 hlong)]
  rfl

/-- With patterns that cannot be used the check ends as well. -/
theorem check_of_fault (hlive : s.sessions.timeToLive ≤ Registry.maxTimeToLive) {f : Failure}
    (hf : Discovery.ofSettings s.files = .error f) (path : String) :
    check t around s path = give t ("Error: " ++ f.message ++ "\n") .failure := by
  simp only [check, Registry.open?, if_pos hlive, hf]

section LawfulMonad

variable [LawfulMonad m]

theorem satisfies_give {text : String} {exit : ExitStatus} (h : exit ≠ .crash) :
    SatisfiesM (· ≠ .crash) (give t text exit) :=
  SatisfiesM.bind SatisfiesM.trivial fun _ _ => SatisfiesM.pure h

theorem satisfies_conclude (x : Except Failure Summary × Registry) :
    SatisfiesM (· ≠ .crash) (conclude t around s x) := by
  obtain ⟨outcome, r⟩ := x
  cases outcome with
  | error f =>
    dsimp only [conclude]
    cases f.explain s.verbosity with
    | some text => exact satisfies_give (by decide)
    | none => exact SatisfiesM.pure (by decide)
  | ok summary =>
    refine SatisfiesM.bind SatisfiesM.trivial fun _ _ => SatisfiesM.pure ?_
    split <;> decide

/-- With a time that is not too long, the check of documents does not break down. -/
theorem satisfies_check (hlive : s.sessions.timeToLive ≤ Registry.maxTimeToLive) (path : String) :
    SatisfiesM (· ≠ .crash) (check t around s path) := by
  cases hd : Discovery.ofSettings s.files with
  | error f =>
    rw [check_of_fault hlive hd]
    exact satisfies_give (by decide)
  | ok discovery =>
    rw [check_of_discovery t hlive hd]
    exact SatisfiesM.bind SatisfiesM.trivial fun x _ => satisfies_conclude x

/-- A program that does not get so far does not break down. -/
theorem begun_or_satisfies (t : Terminal m) (around : Surroundings) (words : List String) :
    (∃ a s, Begun around words a s) ∨ SatisfiesM (· ≠ .crash) (run t around words) := by
  unfold run
  cases hread : Arguments.read words with
  | error fault =>
    right
    cases fault with
    | help | version =>
      exact SatisfiesM.bind SatisfiesM.trivial fun _ _ => SatisfiesM.pure (by decide)
    | _ => exact satisfies_give (by decide)
  | ok a =>
    dsimp only
    unfold serve
    cases hcomplaint : a.complaint? around.files with
    | some message => exact .inr (satisfies_give (by decide))
    | none =>
      cases hload : Settings.load around.files around.environment a with
      | error fault => exact .inr (satisfies_give (by decide))
      | ok s =>
        cases hlists : a.listKeywords with
        | true =>
          exact .inr (SatisfiesM.bind SatisfiesM.trivial fun _ _ => SatisfiesM.pure (by decide))
        | false => exact .inl ⟨a, s, hread, hlists, hcomplaint, hload⟩

/-- **The program breaks down exactly when an unused session is to be kept for too long.** Settings
that have been loaded meet all demands, and yet the program writes one line and breaks down when
their time to live is more than a thousand years. With a shorter time, or when it does not get so
far as to check documents, it does not break down. -/
theorem run_breakdown (t : Terminal m) (around : Surroundings) (words : List String) :
    (∀ a s, Begun around words a s → s.Workable ∧
      (Registry.maxTimeToLive < s.sessions.timeToLive →
        run t around words = give t "time_to_idle is longer than 1000 years\n" .crash) ∧
      (s.sessions.timeToLive ≤ Registry.maxTimeToLive →
        SatisfiesM (· ≠ .crash) (run t around words))) ∧
    ((¬∃ a s, Begun around words a s) → SatisfiesM (· ≠ .crash) (run t around words)) := by
  constructor
  · intro a s h
    obtain ⟨path, -, hrun⟩ := h.run_eq t
    rw [hrun]
    exact ⟨h.workable, fun hlong => check_of_overlong hlong path,
      fun hlive => satisfies_check hlive path⟩
  · intro hnot
    exact (begun_or_satisfies t around words).resolve_left hnot

end LawfulMonad

theorem run_breakdown_besideNoText :
    let after := fun seconds => (run silent
      (besideNoText [("VALIDATE_HATOM_SESSION_TTL", seconds)]) ["page.html"]).run
    after "31536000001" = .crash ∧ after "31536000000" ≠ .crash := by
  intro after
  have begun : ∀ (seconds : String) (s : Settings),
      Settings.load (besideNoText []).files [("VALIDATE_HATOM_SESSION_TTL", seconds)]
        { path := some "page.html" } = .ok s →
      Begun (besideNoText [("VALIDATE_HATOM_SESSION_TTL", seconds)]) ["page.html"]
        { path := some "page.html" } s :=
    fun _ _ hload => ⟨rfl, rfl, rfl, hload⟩
  constructor
  · obtain ⟨-, hlong, -⟩ := (run_breakdown silent _ _).1 _ _ (begun "31536000001" _ rfl)
    exact congrArg Id.run (hlong (by decide))
  · obtain ⟨-, -, hlive⟩ := (run_breakdown silent _ _).1 _ _ (begun "31536000000" _ rfl)
    obtain ⟨ended, hended⟩ := hlive (by decide)
    rw [show after "31536000000" = ended.run.val from (congrArg Id.run hended).symm]
    exact ended.run.property

end Program

end HAtom

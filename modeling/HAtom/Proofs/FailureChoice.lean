import HAtom.Settings.Load

/-!
# The choice to fail

Whether the program fails when there is something to report is chosen by a file, by a variable of the
environment and by an argument. None of these choices has a say in any other setting: settings that
are loaded from layers that are the same but for the choice are the same but for the choice.

* `Settings.Alike` settings differ in the choice at most.
* `Settings.Agree` is that for settings that are still to be loaded: the relation is kept by each
  layer.
* `Settings.agree_load`: all layers together.
-/

namespace HAtom

/-- What comes after an action is asked only when the action answers. -/
theorem exists_of_bind_eq_ok {ε α β : Type} {x : Except ε α} {f : α → Except ε β} {b : β}
    (h : x >>= f = .ok b) : ∃ a, x = .ok a ∧ f a = .ok b := by
  cases x with
  | error fault => cases h
  | ok a => exact ⟨a, rfl, h⟩

namespace Settings

/-! ## Settings that differ in the choice -/

/-- The settings with another choice. -/
def failing (s : Settings) (fails : Bool) : Settings :=
  { s with check := { s.check with failOnReports := fails } }

/-- The settings are the same but for the choice to fail. -/
def Alike (s s' : Settings) : Prop := ∃ fails, s' = s.failing fails

variable {s s' : Settings}

theorem Alike.refl (s : Settings) : s.Alike s := ⟨s.check.failOnReports, rfl⟩

section Alike

variable (h : s.Alike s')

include h

theorem Alike.sessions : s'.sessions = s.sessions := by
  obtain ⟨fails, rfl⟩ := h
  rfl

theorem Alike.files : s'.files = s.files := by
  obtain ⟨fails, rfl⟩ := h
  rfl

theorem Alike.display (colors : Bool) : s'.display colors = s.display colors := by
  obtain ⟨fails, rfl⟩ := h
  rfl

theorem Alike.concurrency (processors : Nat) :
    s'.concurrency processors = s.concurrency processors := by
  obtain ⟨fails, rfl⟩ := h
  rfl

theorem Alike.complaint? : s'.complaint? = s.complaint? := by
  obtain ⟨fails, rfl⟩ := h
  rfl

theorem Alike.laidOver (base : Settings) :
    (s.laidOver base).Alike (s'.laidOver base) := by
  obtain ⟨fails, rfl⟩ := h
  exact ⟨fails, rfl⟩

/-- The argument against failing changes nothing but the choice. -/
theorem Alike.withArguments (a : Arguments) (noFail : Bool) :
    (withArguments a s).Alike (withArguments { a with noFail } s') := by
  obtain ⟨fails, rfl⟩ := h
  exact ⟨fails && !noFail, rfl⟩

end Alike

/-! ## Settings that are still to be loaded -/

/-- If both are settings at all, they are the same but for the choice to fail. -/
def Agree (x x' : Except SettingsFault Settings) : Prop :=
  ∀ s s', x = .ok s → x' = .ok s' → s.Alike s'

variable {x x' : Except SettingsFault Settings} {env env' : Environment}

theorem Agree.refl (x : Except SettingsFault Settings) : Agree x x := by
  intro s s' h h'
  obtain rfl : s = s' := Except.ok.inj (h.symm.trans h')
  exact .refl s

theorem Alike.agree (h : s.Alike s') : Agree (.ok s) (.ok s') := by
  rintro _ _ ⟨⟩ ⟨⟩
  exact h

/-- **A layer after another one** keeps the settings alike if both do. -/
theorem Agree.bind {f f' : Settings → Except SettingsFault Settings} (h : Agree x x')
    (hf : ∀ s s', s.Alike s' → Agree (f s) (f' s')) : Agree (x >>= f) (x' >>= f') := by
  intro t t' ht ht'
  obtain ⟨s, hs, ht⟩ := exists_of_bind_eq_ok ht
  obtain ⟨s', hs', ht'⟩ := exists_of_bind_eq_ok ht'
  exact hf s s' (h s s' hs hs') t t' ht ht'


theorem Alike.checked (h : s.Alike s') : Agree s.checked s'.checked := by
  unfold Settings.checked
  rw [h.complaint?]
  cases s.complaint? with
  | some complaint => exact fun _ _ hs => nomatch hs
  | none => exact h.agree

/-! ## The environment -/

/-- The variable with the choice to fail. -/
def failVariable : String := "VALIDATE_HATOM_FAIL_ON_REPORTS"

/-- All variables but the one with the choice have the same values. -/
def SameElsewhere (env env' : Environment) : Prop :=
  ∀ name, name ≠ failVariable → env'.lookup name = env.lookup name

/-- A variable that changes some other setting. -/
theorem Alike.byVariable {α : Type} {name : String} {read : String → Option α}
    {change : Settings → α → Settings} (hs : s.Alike s') (hname : env'.lookup name = env.lookup name)
    (hchange : ∀ s a fails, change (s.failing fails) a = (change s a).failing fails) :
    Agree (byVariable env name read change s) (byVariable env' name read change s') := by
  unfold Settings.byVariable
  rw [hname]
  cases env.lookup name with
  | none => exact hs.agree
  | some value =>
    cases hread : read value with
    | none =>
      intro t t' ht
      simp only [hread, reduceCtorEq] at ht
    | some a =>
      obtain ⟨fails, rfl⟩ := hs
      simp only [hread]
      exact Alike.agree ⟨fails, hchange s a fails⟩

/-- The variable with the choice, whatever values it has. -/
theorem Alike.byFailVariable {name : String} {read : String → Option Bool} (hs : s.Alike s') :
    Agree (Settings.byVariable env name read (fun s b => { s with check.failOnReports := b }) s)
      (Settings.byVariable env' name read (fun s b => { s with check.failOnReports := b }) s') := by
  -- each side is the settings with some choice
  have hfailing : ∀ (env : Environment) (s t : Settings),
      Settings.byVariable env name read (fun s b => { s with check.failOnReports := b }) s = .ok t →
        ∃ fails, t = s.failing fails := by
    intro env s t ht
    unfold Settings.byVariable at ht
    split at ht
    · cases ht
      exact Alike.refl s
    · split at ht
      · cases ht
        exact ⟨_, rfl⟩
      · cases ht
  intro t t' ht ht'
  obtain ⟨fails, rfl⟩ := hs
  obtain ⟨b, rfl⟩ := hfailing env s t ht
  obtain ⟨b', rfl⟩ := hfailing env' _ t' ht'
  exact ⟨b', rfl⟩

/-- **The environment** keeps settings alike, whatever the variable with the choice says. -/
theorem Alike.withEnvironment (hs : s.Alike s') (henv : SameElsewhere env env') :
    Agree (withEnvironment env s) (withEnvironment env' s') := by
  unfold Settings.withEnvironment
  refine (hs.byVariable (henv _ (by decide)) fun _ _ _ => rfl).bind fun s s' hs => ?_
  refine (hs.byVariable (henv _ (by decide)) fun _ _ _ => rfl).bind fun s s' hs => ?_
  refine hs.byFailVariable.bind fun s s' hs => ?_
  refine (hs.byVariable (henv _ (by decide)) fun _ _ _ => rfl).bind fun s s' hs => ?_
  refine (hs.byVariable (henv _ (by decide)) fun _ _ _ => rfl).bind fun s s' hs => ?_
  refine (hs.byVariable (henv _ (by decide)) fun _ _ _ => rfl).bind fun s s' hs => ?_
  refine (hs.byVariable (henv _ (by decide)) fun _ _ _ => rfl).bind fun s s' hs => ?_
  refine (hs.byVariable (henv _ (by decide)) fun _ _ _ => rfl).bind fun s s' hs => ?_
  refine (hs.byVariable (henv _ (by decide)) fun _ _ _ => rfl).bind fun s s' hs => ?_
  exact hs.byVariable (henv _ (by decide)) fun _ _ _ => rfl

end Settings

end HAtom

import HAtom.Proofs.FailureChoice
import Mathlib.Logic.Function.Basic

/-!
# What a layer chooses

Settings one by one, and what a layer chooses for each of them: a value, or nothing. Arguments and
the environment lie over other settings, so that each setting has the value that they choose, and
where they choose none, the value it had.

* `Setting` names a setting, and `Choices` is what a layer chooses.
* `Settings.chosen_withArguments`: arguments over settings.
* `Settings.withEnvironment_cases`: the environment over settings. It is refused exactly when one of
  its variables has no meaning.
-/

namespace HAtom

/-! ## Settings one by one -/

/-- The settings, one by one. -/
inductive Setting
  | threads
  | timeout
  | failOnReports
  | maxSessions
  | timeToLive
  | verbose
  | quiet
  | format
  | extensions
  | vocabulary
  | showProgress
  | includePatterns
  | excludePatterns
  | maxDepth
  deriving DecidableEq, Repr

namespace Setting

/-- What can be chosen for a setting. -/
abbrev Value : Setting → Type
  | threads | timeout | maxSessions | timeToLive | maxDepth => Nat
  | failOnReports | showProgress | verbose | quiet => Bool
  | format => Format
  | extensions | includePatterns | excludePatterns => List String
  | vocabulary => String

end Setting

/-- What a layer chooses: for each setting a value, or nothing. -/
abbrev Choices := (k : Setting) → Option k.Value

namespace Choices

/-- The choices of a layer, and those of a base where the layer makes none. -/
def above (layer base : Choices) : Choices := fun k => (layer k).or (base k)

/-- For each setting the choice of the first layer that makes one. -/
def highest (layers : List Choices) : Choices := fun k => layers.findSome? fun layer => layer k

end Choices

namespace Settings

/-- The value of each setting; there is none for a setting that may be left open and is. -/
def chosen (s : Settings) : Choices
  | .threads => s.check.threads
  | .timeout => some s.check.timeout
  | .failOnReports => some s.check.failOnReports
  | .showProgress => some s.check.showProgress
  | .maxSessions => some s.sessions.maxSessions
  | .timeToLive => some s.sessions.timeToLive
  | .format => some s.output.format
  | .verbose => some s.output.verbose
  | .quiet => some s.output.quiet
  | .extensions => some s.files.extensions
  | .includePatterns => some s.files.includePatterns
  | .excludePatterns => some s.files.excludePatterns
  | .maxDepth => s.files.maxDepth
  | .vocabulary => s.vocabulary

/-- The settings with these values, and with those that hold by default where there is none. -/
def ofChoices (c : Choices) : Settings where
  check := {
    threads := c .threads
    timeout := (c .timeout).getD initial.check.timeout
    failOnReports := (c .failOnReports).getD initial.check.failOnReports
    showProgress := (c .showProgress).getD initial.check.showProgress }
  sessions := {
    maxSessions := (c .maxSessions).getD initial.sessions.maxSessions
    timeToLive := (c .timeToLive).getD initial.sessions.timeToLive }
  output := {
    format := (c .format).getD initial.output.format
    verbose := (c .verbose).getD initial.output.verbose
    quiet := (c .quiet).getD initial.output.quiet }
  files := {
    extensions := (c .extensions).getD initial.files.extensions
    includePatterns := (c .includePatterns).getD initial.files.includePatterns
    excludePatterns := (c .excludePatterns).getD initial.files.excludePatterns
    maxDepth := c .maxDepth }
  vocabulary := c .vocabulary

theorem ofChoices_chosen (s : Settings) : ofChoices s.chosen = s := rfl

/-- Settings are known by the values of all of them. -/
theorem eq_of_chosen {s t : Settings} (h : s.chosen = t.chosen) : s = t := by
  rw [← s.ofChoices_chosen, h, t.ofChoices_chosen]

/-- The settings with another value of one of them. -/
def set (s : Settings) : (k : Setting) → k.Value → Settings
  | .threads, n => { s with check.threads := some n }
  | .timeout, n => { s with check.timeout := n }
  | .failOnReports, b => { s with check.failOnReports := b }
  | .showProgress, b => { s with check.showProgress := b }
  | .maxSessions, n => { s with sessions.maxSessions := n }
  | .timeToLive, n => { s with sessions.timeToLive := n }
  | .format, f => { s with output.format := f }
  | .verbose, b => { s with output.verbose := b }
  | .quiet, b => { s with output.quiet := b }
  | .extensions, es => { s with files.extensions := es }
  | .includePatterns, ps => { s with files.includePatterns := ps }
  | .excludePatterns, ps => { s with files.excludePatterns := ps }
  | .maxDepth, n => { s with files.maxDepth := some n }
  | .vocabulary, path => { s with vocabulary := some path }

theorem chosen_set (s : Settings) (k : Setting) (v : k.Value) :
    (s.set k v).chosen = Function.update s.chosen k (some v) := by
  funext j
  cases k <;> cases j <;> rfl

end Settings

/-! ## Arguments -/

/-- What arguments choose. A flag chooses one way only, and each of the flags for how much is said
chooses against the other as well. -/
def Arguments.choices (a : Arguments) : Choices
  | .threads => a.threads
  | .timeout => a.timeout
  | .failOnReports => if a.noFail then some false else none
  | .showProgress => if a.progress then some true else none
  | .maxSessions => a.maxSessions
  | .timeToLive => none
  | .format => a.format
  | .verbose => if a.quiet then some false else if a.verbose then some true else none
  | .quiet => if a.quiet then some true else if a.verbose then some false else none
  | .extensions => a.extensionList
  | .includePatterns => if a.includePatterns.isEmpty then none else some a.includePatterns
  | .excludePatterns => if a.excludePatterns.isEmpty then none else some a.excludePatterns
  | .maxDepth => a.maxDepth
  | .vocabulary => a.vocabulary

theorem Settings.some_listOr (base overlay : List String) :
    some (listOr base overlay) =
      (if overlay.isEmpty then none else some overlay).or (some base) := by
  unfold listOr
  split <;> rfl

/-- **Arguments lie over settings.** -/
theorem Settings.chosen_withArguments (a : Arguments) (s : Settings) :
    (withArguments a s).chosen = a.choices.above s.chosen := by
  funext k
  cases k with
  | threads | maxDepth | vocabulary | timeToLive => rfl
  | timeout | maxSessions | format | extensions => exact Option.or_some.symm
  | includePatterns | excludePatterns => exact some_listOr ..
  | failOnReports =>
    change some (s.check.failOnReports && !a.noFail) =
      (if a.noFail then some false else none).or (some s.check.failOnReports)
    cases a.noFail <;> simp
  | showProgress =>
    change some (s.check.showProgress || a.progress) =
      (if a.progress then some true else none).or (some s.check.showProgress)
    cases a.progress <;> simp
  | verbose =>
    change some (if a.quiet then false else a.verbose || s.output.verbose) =
      (if a.quiet then some false else if a.verbose then some true else none).or
        (some s.output.verbose)
    cases a.quiet <;> cases a.verbose <;> rfl
  | quiet =>
    change some (if a.quiet then true else !a.verbose && s.output.quiet) =
      (if a.quiet then some true else if a.verbose then some false else none).or
        (some s.output.quiet)
    cases a.quiet <;> cases a.verbose <;> rfl

/-! ## The environment -/

open Settings in
/-- The variable that chooses a setting, and how its value is read. -/
def Setting.variable? : (k : Setting) → Option (String × (String → Option k.Value))
  | threads => some ("VALIDATE_HATOM_THREADS", numberVariable?)
  | timeout => some ("VALIDATE_HATOM_TIMEOUT", numberVariable?)
  | failOnReports => some ("VALIDATE_HATOM_FAIL_ON_REPORTS", truthVariable?)
  | maxSessions => some ("VALIDATE_HATOM_MAX_SESSIONS", numberVariable?)
  | timeToLive => some ("VALIDATE_HATOM_SESSION_TTL", numberVariable?)
  | verbose => some ("VALIDATE_HATOM_VERBOSE", truthVariable?)
  | quiet => some ("VALIDATE_HATOM_QUIET", truthVariable?)
  | format => some ("VALIDATE_HATOM_FORMAT", fun value => format? (Text.lower value))
  | extensions => some ("VALIDATE_HATOM_EXTENSIONS", fun value => some (listVariable value))
  | vocabulary => some ("VALIDATE_HATOM_VOCABULARY", fun path => some path)
  | showProgress | includePatterns | excludePatterns | maxDepth => none

/-- What the environment chooses. -/
def Environment.choices (env : Environment) : Choices := fun k =>
  k.variable?.bind fun (name, read) => (env.lookup name).bind read

/-- The variable for a setting is set, but has no meaning. -/
def Environment.Misread (env : Environment) (k : Setting) : Prop :=
  match k.variable? with
  | some (name, read) => ∃ value, env.lookup name = some value ∧ read value = none
  | none => False

namespace Settings

/-- The settings with what the environment chooses for one of them. -/
def layVariable (env : Environment) (s : Settings) (k : Setting) : Except SettingsFault Settings :=
  match k.variable? with
  | some (name, read) => byVariable env name read (fun s v => s.set k v) s
  | none => .ok s

/-- The settings that variables choose, in the order in which the variables are read. -/
def variableOrder : List Setting :=
  [.threads, .timeout, .failOnReports, .maxSessions, .timeToLive, .verbose, .quiet, .format,
    .extensions, .vocabulary]

theorem withEnvironment_eq (env : Environment) (s : Settings) :
    withEnvironment env s = variableOrder.foldlM (layVariable env) s := by
  simp only [variableOrder, List.foldlM_cons, List.foldlM_nil, bind_pure]
  rfl

theorem variable?_of_not_mem {k : Setting} (h : k ∉ variableOrder) : k.variable? = none := by
  cases k <;> simp_all [variableOrder, Setting.variable?]

/-- **One variable**: if it has a meaning or is not set, it changes its setting only. -/
theorem layVariable_cases (env : Environment) (s : Settings) (k : Setting) :
    (env.Misread k ∧ ∃ fault, layVariable env s k = .error fault) ∨
      ¬env.Misread k ∧ ∃ t, layVariable env s k = .ok t ∧
        t.chosen = Function.update s.chosen k ((env.choices k).or (s.chosen k)) := by
  unfold layVariable Environment.Misread Environment.choices
  cases hk : k.variable? with
  | none => simp
  | some chooser =>
    obtain ⟨name, read⟩ := chooser
    unfold byVariable
    cases hname : env.lookup name with
    | none => simp [hname]
    | some value =>
      cases hread : read value with
      | none => simp [hname, hread]
      | some v => simp [hname, hread, chosen_set]

/-- **The environment**: settings are changed by the variables, unless one has no meaning. -/
theorem foldlM_layVariable (env : Environment) (ks : List Setting) (s : Settings) :
    ((∃ k ∈ ks, env.Misread k) ∧ ∃ fault, ks.foldlM (layVariable env) s = .error fault) ∨
      (∀ k ∈ ks, ¬env.Misread k) ∧ ∃ t, ks.foldlM (layVariable env) s = .ok t ∧
        ∀ k, t.chosen k = if k ∈ ks then (env.choices k).or (s.chosen k) else s.chosen k := by
  induction ks generalizing s with
  | nil => exact .inr ⟨by simp, s, rfl, by simp⟩
  | cons k rest ih =>
    rw [List.foldlM_cons]
    rcases layVariable_cases env s k with ⟨hbad, fault, hfault⟩ | ⟨hgood, t, ht, hchosen⟩
    · rw [hfault]
      exact .inl ⟨⟨k, by simp, hbad⟩, fault, rfl⟩
    · rw [ht]
      rcases ih t with ⟨⟨j, hj, hbad⟩, fault, hfault⟩ | ⟨hrest, u, hu, hvalues⟩
      · exact .inl ⟨⟨j, by simp [hj], hbad⟩, fault, hfault⟩
      · refine .inr ⟨by simpa [hgood] using hrest, u, hu, fun j => ?_⟩
        rw [hvalues j, hchosen]
        by_cases hjk : j = k
        · subst hjk
          rw [Function.update_self]
          cases env.choices j <;> simp
        · rw [Function.update_of_ne hjk]
          simp [hjk]

theorem withEnvironment_cases (env : Environment) (s : Settings) :
    ((∃ k, env.Misread k) ∧ ∃ fault, withEnvironment env s = .error fault) ∨
      (∀ k, ¬env.Misread k) ∧ ∃ t, withEnvironment env s = .ok t ∧
        t.chosen = env.choices.above s.chosen := by
  rw [withEnvironment_eq]
  rcases foldlM_layVariable env variableOrder s with
    ⟨⟨k, -, hbad⟩, hfault⟩ | ⟨hgood, t, ht, hchosen⟩
  · exact .inl ⟨⟨k, hbad⟩, hfault⟩
  · refine .inr ⟨fun k hk => ?_, t, ht, funext fun k => ?_⟩
    · by_cases hmem : k ∈ variableOrder
      · exact hgood k hmem hk
      · rw [Environment.Misread, variable?_of_not_mem hmem] at hk
        exact hk
    · rw [hchosen k]
      split
      · rfl
      · next hmem => simp [Choices.above, Environment.choices, variable?_of_not_mem hmem]

end Settings

end HAtom

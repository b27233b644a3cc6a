import HAtom.Proofs.FileChoices

/-!
# Which layer has its way

Loaded settings are those of all layers, each setting with the value of the highest layer that
chooses one. Demands are made on them only: a bad value that a higher layer replaces does no harm.
Only a variable of the environment has to have a meaning even when it is replaced.

* `Settings.Workable` settings meet all demands.
* `Settings.layers` are the choices of all layers.
* `Settings.load_layers`: what is loaded, and when nothing is.
-/

namespace HAtom

namespace Settings

/-! ## Demands on settings -/

/-- The settings are such that the program accepts them. -/
structure Workable (s : Settings) : Prop where
  threads : ∀ n, s.check.threads = some n → 0 < n ∧ n ≤ maxThreads
  timeout : 0 < s.check.timeout
  maxSessions : 0 < s.sessions.maxSessions
  timeToLive : 0 < s.sessions.timeToLive
  loudness : ¬(s.output.verbose = true ∧ s.output.quiet = true)
  extensions : s.files.extensions ≠ []
  extension : ∀ e ∈ s.files.extensions,
    e ≠ "" ∧ '/' ∉ e.toList ∧ '\\' ∉ e.toList ∧ '.' ∉ e.toList
  vocabulary : ∀ path, s.vocabulary = some path →
    PathText.extension? path = some "toml" ∨ PathText.extension? path = some "json"

theorem isExtension_iff (e : String) :
    isExtension e = true ↔ e ≠ "" ∧ '/' ∉ e.toList ∧ '\\' ∉ e.toList ∧ '.' ∉ e.toList := by
  unfold isExtension
  rw [Bool.and_eq_true, List.all_eq_true, Bool.not_eq_true', ← Bool.not_eq_true, String.isEmpty_iff]
  refine and_congr_right fun _ => ?_
  simp only [Bool.and_eq_true, bne_iff_ne]
  constructor
  · intro h
    exact ⟨fun hc => (h _ hc).1.1 rfl, fun hc => (h _ hc).1.2 rfl, fun hc => (h _ hc).2 rfl⟩
  · rintro ⟨hslash, hback, hpoint⟩ c hc
    refine ⟨⟨?_, ?_⟩, ?_⟩ <;> rintro rfl <;> contradiction

theorem isVocabularyPath_iff (path : String) :
    isVocabularyPath path = true ↔
      PathText.extension? path = some "toml" ∨ PathText.extension? path = some "json" := by
  unfold isVocabularyPath
  cases PathText.extension? path <;> simp

/-- A demand that is not met ends the look at the others. -/
theorem complaintIf_eq_none_iff {c : Prop} [Decidable c] {text : String} {later : Option String} :
    (if c then some text else later) = none ↔ ¬c ∧ later = none := by
  split <;> simp [*]

/-- The last two demands that are looked at. -/
theorem complaintOfNames_eq_none_iff (extensions : List String) (vocabulary : Option String) :
    (match extensions.find? fun e => !isExtension e with
      | some e => some ("Invalid file extension: " ++ Text.quoted e)
      | none =>
        match vocabulary with
        | some path =>
          if isVocabularyPath path then none
          else some ("Vocabulary file must be .toml or .json: " ++ path)
        | none => none) = none ↔
      (∀ e ∈ extensions, isExtension e = true) ∧
        ∀ path, vocabulary = some path → isVocabularyPath path = true := by
  cases hfind : extensions.find? fun e => !isExtension e with
  | some e =>
    have hbad := List.find?_some hfind
    have hmem := List.mem_of_find?_eq_some hfind
    refine iff_of_false nofun fun h => ?_
    simp [h.1 e hmem] at hbad
  | none =>
    have hall : ∀ e ∈ extensions, isExtension e = true := by simpa using hfind
    cases vocabulary with
    | none => simpa using hall
    | some path => simpa using fun _ => hall

/-- **Nothing is wrong with settings exactly when they meet all demands.** -/
theorem complaint?_eq_none_iff {s : Settings} : s.complaint? = none ↔ s.Workable := by
  have hnames := complaintOfNames_eq_none_iff s.files.extensions s.vocabulary
  unfold complaint?
  simp only [complaintIf_eq_none_iff]
  constructor
  · rintro ⟨hzero, hmost, htimeout, hmax, hlive, hloud, hsome, hlast⟩
    obtain ⟨hextension, hvocabulary⟩ := hnames.1 hlast
    refine ⟨fun n hn => ?_, ?_, ?_, ?_, ?_, ?_, fun e he => (isExtension_iff e).1 (hextension e he),
      fun path hpath => (isVocabularyPath_iff path).1 (hvocabulary path hpath)⟩
    · simp only [hn, beq_iff_eq, Option.some.injEq, Option.any_some,
        decide_eq_true_eq] at hzero hmost
      omega
    · simpa [Nat.pos_iff_ne_zero] using htimeout
    · simpa [Nat.pos_iff_ne_zero] using hmax
    · simpa [Nat.pos_iff_ne_zero] using hlive
    · simpa using hloud
    · simpa using hsome
  · intro h
    have hlast := hnames.2 ⟨fun e he => (isExtension_iff e).2 (h.extension e he),
      fun path hpath => (isVocabularyPath_iff path).2 (h.vocabulary path hpath)⟩
    refine ⟨?_, ?_, by simpa using Nat.ne_of_gt h.timeout, by simpa using Nat.ne_of_gt h.maxSessions,
      by simpa using Nat.ne_of_gt h.timeToLive, by simpa using h.loudness,
      by simpa using h.extensions, hlast⟩
    · intro hzero
      have hpos := (h.threads 0 (by simpa using hzero)).1
      exact absurd hpos (Nat.lt_irrefl 0)
    · cases hthreads : s.check.threads with
      | none => simp
      | some n => simpa using (h.threads n hthreads).2

theorem checked_cases (s : Settings) :
    (¬s.Workable ∧ ∃ fault, s.checked = .error fault) ∨ s.Workable ∧ s.checked = .ok s := by
  unfold checked
  cases h : s.complaint? with
  | none => exact .inr ⟨complaint?_eq_none_iff.1 h, rfl⟩
  | some complaint =>
    refine .inl ⟨fun hw => ?_, _, rfl⟩
    rw [complaint?_eq_none_iff.2 hw] at h
    cases h

/-! ## All layers -/

/-- The choices of all layers, the arguments above the environment, this above the file, and below
all what holds by default. -/
def layers (env : Environment) (a : Arguments) (file : Choices) : Choices :=
  .highest [a.choices, env.choices, file, initial.chosen]

theorem layers_eq (env : Environment) (a : Arguments) (file : Choices) :
    layers env a file = a.choices.above (env.choices.above (file.above initial.chosen)) := by
  funext k
  simp only [layers, Choices.highest, Choices.above, List.findSome?_cons, List.findSome?_nil]
  cases a.choices k <;> cases env.choices k <;> cases file k <;> cases initial.chosen k <;> rfl

variable {files : FileTree} {env : Environment} {a : Arguments}

theorem load_eq (files : FileTree) (env : Environment) (a : Arguments) :
    load files env a =
      withFile files env a >>= fun s =>
        withEnvironment env s >>= fun s => (withArguments a s).checked := by
  unfold load withFile
  cases path? files env a <;> rfl

theorem load_of_badFile (h : BadFile files env a) : ∃ fault, load files env a = .error fault := by
  obtain ⟨fault, hfault⟩ := h.withFile
  rw [load_eq, hfault]
  exact ⟨fault, rfl⟩

/-- Loading when the file chooses something, if nothing at all. -/
theorem FileLayer.load_cases {file : Choices} (h : FileLayer files env a file) :
    ((∃ k, env.Misread k) ∧ ∃ fault, load files env a = .error fault) ∨
      (∀ k, ¬env.Misread k) ∧ ∃ s : Settings, s.chosen = layers env a file ∧
        (¬s.Workable ∧ (∃ fault, load files env a = .error fault) ∨
          s.Workable ∧ load files env a = .ok s) := by
  obtain ⟨base, hbase, hfile⟩ := h.withFile
  rw [load_eq, hbase]
  rcases withEnvironment_cases env base with ⟨hbad, fault, hfault⟩ | ⟨hgood, t, ht, henv⟩
  · refine .inl ⟨hbad, fault, ?_⟩
    change withEnvironment env base >>= _ = _
    rw [hfault]
    rfl
  · refine .inr ⟨hgood, withArguments a t, ?_, ?_⟩
    · rw [chosen_withArguments, henv, hfile, layers_eq]
    · change _ ∧ (∃ fault, (withEnvironment env base >>= _) = _) ∨
        _ ∧ (withEnvironment env base >>= _) = _
      rw [ht]
      exact checked_cases (withArguments a t)

/-- Loaded settings have the values of all layers, and they meet all demands. -/
theorem load_eq_ok_iff {s : Settings} : load files env a = .ok s ↔
    ∃ file, FileLayer files env a file ∧ (∀ k, ¬env.Misread k) ∧ s.Workable ∧
      s.chosen = layers env a file := by
  constructor
  · intro hload
    rcases badFile_or_fileLayer files env a with hbad | ⟨file, hfile⟩
    · obtain ⟨fault, hfault⟩ := load_of_badFile hbad
      cases hload.symm.trans hfault
    · rcases hfile.load_cases with
        ⟨-, fault, hfault⟩ | ⟨hgood, t, ht, ⟨-, fault, hfault⟩ | ⟨hw, hok⟩⟩
      · cases hload.symm.trans hfault
      · cases hload.symm.trans hfault
      · cases hload.symm.trans hok
        exact ⟨file, hfile, hgood, hw, ht⟩
  · rintro ⟨file, hfile, hgood, hw, hs⟩
    rcases hfile.load_cases with ⟨⟨k, hk⟩, -⟩ | ⟨-, t, ht, hload⟩
    · exact absurd hk (hgood k)
    · obtain rfl : s = t := eq_of_chosen (hs.trans ht.symm)
      rcases hload with ⟨hnot, -⟩ | ⟨-, hok⟩
      · exact absurd hw hnot
      · exact hok

/-- Nothing is loaded when the file is bad, when a variable has no meaning, or when the settings of
all layers do not meet a demand. -/
theorem load_eq_error_iff : (∃ fault, load files env a = .error fault) ↔
    BadFile files env a ∨ (∃ k, env.Misread k) ∨
      ∃ file, ∃ s : Settings, FileLayer files env a file ∧ ¬s.Workable ∧
        s.chosen = layers env a file := by
  constructor
  · rintro ⟨fault, hload⟩
    rcases badFile_or_fileLayer files env a with hbad | ⟨file, hfile⟩
    · exact .inl hbad
    · rcases hfile.load_cases with ⟨hmisread, -⟩ | ⟨-, t, ht, ⟨hnot, -⟩ | ⟨-, hok⟩⟩
      · exact .inr (.inl hmisread)
      · exact .inr (.inr ⟨file, t, hfile, hnot, ht⟩)
      · cases hload.symm.trans hok
  · rintro (hbad | ⟨k, hk⟩ | ⟨file, s, hfile, hnot, hs⟩)
    · exact load_of_badFile hbad
    · rcases badFile_or_fileLayer files env a with hbad | ⟨file, hfile⟩
      · exact load_of_badFile hbad
      · rcases hfile.load_cases with ⟨-, hfault⟩ | ⟨hgood, -⟩
        · exact hfault
        · exact absurd hk (hgood k)
    · rcases hfile.load_cases with ⟨-, hfault⟩ | ⟨-, t, ht, hload⟩
      · exact hfault
      · obtain rfl : s = t := eq_of_chosen (hs.trans ht.symm)
        rcases hload with ⟨-, hfault⟩ | ⟨hw, -⟩
        · exact hfault
        · exact absurd hw hnot

/-- **Each setting has the value that the highest layer chooses**, of the arguments, the
environment, the file and what holds by default. Only a bad file, a variable without a meaning and
a demand that the settings of all layers do not meet keep settings from being loaded. -/
theorem load_layers (files : FileTree) (env : Environment) (a : Arguments) :
    (∀ s, load files env a = .ok s ↔
      ∃ file, FileLayer files env a file ∧ (∀ k, ¬env.Misread k) ∧ s.Workable ∧
        ∀ k, s.chosen k =
          [a.choices, env.choices, file, initial.chosen].findSome? fun layer => layer k) ∧
    ((∃ fault, load files env a = .error fault) ↔
      BadFile files env a ∨ (∃ k, env.Misread k) ∨
        ∃ file, ∃ s : Settings, FileLayer files env a file ∧ ¬s.Workable ∧
          ∀ k, s.chosen k =
            [a.choices, env.choices, file, initial.chosen].findSome? fun layer => layer k) := by
  have hlayers : ∀ (s : Settings) (file : Choices), s.chosen = layers env a file ↔
      ∀ k, s.chosen k =
        [a.choices, env.choices, file, initial.chosen].findSome? fun layer => layer k :=
    fun _ _ => funext_iff
  simp only [← hlayers]
  exact ⟨fun _ => load_eq_ok_iff, load_eq_error_iff⟩

/-- An argument takes the place of a number in the file that would be refused, but not that of a
variable without a meaning. -/
example :
    let text := "[validation]\nthreads = 0\ntimeout_seconds = 7\n"
    let files : FileTree := ⟨[("validate-hatom.toml", .file (.ok text.toUTF8.toList))], []⟩
    (load files [] {}).toOption = none ∧
      (load files [] { threads := some 4 }).toOption =
        some { check := { threads := some 4, timeout := 7 } } ∧
      (load files [("VALIDATE_HATOM_THREADS", "x")] { threads := some 4 }).toOption = none := by
  decide +kernel

end Settings

end HAtom

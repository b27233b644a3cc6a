import HAtom.Proofs.Choices

/-!
# What a file chooses

A file writes its settings in tables, each a record with the settings as its fields. What it leaves
out it does not choose, and neither does null or an empty list choose anything. Reading fills in
what is left out, so that this has to be undone where the settings of a file are laid over others.

* `Setting.ofField?` is what a value in a field chooses, and `Settings.contentChoices` what the
  content of a file does.
* `Settings.chosen_laidOver`: the settings of a file over those that hold by default.
* `Settings.BadFile` and `Settings.FileLayer` tell a file that cannot be used from what a file, if
  there is one, chooses.
-/

namespace HAtom

/-- What an action answers for each element is what it is known to answer. -/
theorem eq_map_of_mapM_eq_some {α β : Type} {f : α → Option β} {g : α → β} {l : List α}
    {bs : List β} (h : l.mapM f = some bs) (hfg : ∀ a b, f a = some b → b = g a) :
    bs = l.map g := by
  induction l generalizing bs with
  | nil => simpa using h.symm
  | cons a rest ih =>
    simp only [List.mapM_cons, Option.bind_eq_bind, Option.bind_eq_some_iff] at h
    obtain ⟨b, hb, more, hmore, hbs⟩ := h
    obtain rfl : b :: more = bs := Option.some.inj hbs
    rw [List.map_cons, ← hfg a b hb, ← ih hmore]

/-! ## Parts of records -/

namespace Json

/-- The part of a record with a name: an object gives it by its name, a list by the place of the
name among the names of all parts. -/
def part? (names : List String) (name : String) : Json → Option Json
  | object fields => fields.lookup name
  | array items => items[names.idxOf name]?
  | _ => none

/-- The first of the fields with a name is the one that is looked up. -/
theorem head?_named (name : String) (fields : List (String × Json)) :
    (named name fields).head? = fields.lookup name := by
  rw [named, List.head?_filterMap]
  induction fields with
  | nil => rfl
  | cons field rest ih =>
    obtain ⟨other, v⟩ := field
    rw [List.findSome?_cons, List.lookup_cons, ih]
    by_cases h : other = name
    · simp [h]
    · simp [h, beq_eq_false_iff_ne.2 (Ne.symm h)]

/-- **A record is taken apart** into its parts by name. -/
theorem record?_eq {names : List String} {v : Json} {parts : List (Option Json)}
    (hnames : names.Nodup) (h : v.record? names = some parts) :
    parts = names.map fun name => v.part? names name := by
  cases v with
  | object fields =>
    refine eq_map_of_mapM_eq_some h fun name part hpart => ?_
    have hhead := head?_named name fields
    revert hpart
    split
    · next hnone =>
      rintro ⟨⟩
      rw [hnone] at hhead
      exact hhead
    · next v hone =>
      rintro ⟨⟩
      rw [hone] at hhead
      exact hhead
    · rintro ⟨⟩
  | array items =>
    simp only [record?, Option.ite_none_right_eq_some] at h
    obtain ⟨hlength, h⟩ := h
    obtain rfl := Option.some.inj h
    refine List.ext_getElem (by simp; omega) fun i hi hi' => ?_
    have hname : i < names.length := by simpa using hi'
    rw [List.getElem_map, part?, List.Nodup.idxOf_getElem hnames, List.getElem_append]
    split
    · next hitem =>
      rw [List.length_map] at hitem
      simp [hitem]
    · next hitem =>
      rw [List.length_map, Nat.not_lt] at hitem
      simp [hitem]
  | _ => simp [record?] at h

end Json

/-- The parts of a record in either format. -/
theorem DataFormat.record?_eq {format : DataFormat} {names : List String} {v : Json}
    {parts : List (Option Json)} (hnames : names.Nodup) (h : format.record? names v = some parts) :
    parts = names.map fun name => v.part? names name := by
  unfold DataFormat.record? at h
  split at h
  · next items =>
    rw [Json.record?_eq hnames h]
    refine List.map_congr_left fun name hname => ?_
    simp [Json.part?, List.idxOf_lt_length_iff.2 hname]
  · exact Json.record?_eq hnames h

namespace Settings

/-! ## Fields -/

/-- The names of the tables of a file with settings. -/
def tableNames : List String := ["validation", "sessions", "output", "files", "vocabulary"]

end Settings

namespace Setting

/-- The table of a file that holds a setting. -/
def table : Setting → String
  | threads | timeout | failOnReports | showProgress => "validation"
  | maxSessions | timeToLive => "sessions"
  | format | verbose | quiet => "output"
  | extensions | includePatterns | excludePatterns | maxDepth => "files"
  | vocabulary => "vocabulary"

/-- The name of a setting in its table. -/
def field : Setting → String
  | threads => "threads"
  | timeout => "timeout_seconds"
  | failOnReports => "fail_on_reports"
  | showProgress => "show_progress"
  | maxSessions => "max_sessions"
  | timeToLive => "idle_ttl_seconds"
  | format => "format"
  | verbose => "verbose"
  | quiet => "quiet"
  | extensions => "extensions"
  | includePatterns => "include_patterns"
  | excludePatterns => "exclude_patterns"
  | maxDepth => "max_depth"
  | vocabulary => "path"

/-- The names of all settings in the table of a setting. -/
def fields : Setting → List String
  | threads | timeout | failOnReports | showProgress =>
    ["threads", "timeout_seconds", "fail_on_reports", "show_progress"]
  | maxSessions | timeToLive => ["max_sessions", "idle_ttl_seconds"]
  | format | verbose | quiet => ["format", "verbose", "quiet"]
  | extensions | includePatterns | excludePatterns | maxDepth =>
    ["extensions", "include_patterns", "exclude_patterns", "max_depth"]
  | vocabulary => ["path"]

open Settings in
/-- What a value in a file chooses for a setting. A list chooses something only when it is not
empty, and null chooses nothing. -/
def ofField? (dataFormat : DataFormat) : (k : Setting) → Json → Option k.Value
  | threads | timeout | maxSessions | timeToLive | maxDepth => number?
  | failOnReports | showProgress | verbose | quiet => Json.bool?
  | format => fun v => (dataFormat.choice? v).bind format?
  | extensions | includePatterns | excludePatterns =>
    fun v => (Json.strings? v).filter fun l => !l.isEmpty
  | vocabulary => Json.string?

end Setting

namespace Settings

/-- What a table of a file chooses for a setting. -/
def tableChoice (format : DataFormat) (table : Option Json) : Choices := fun k =>
  table.bind fun t => (t.part? k.fields k.field).bind (k.ofField? format)

/-- What the content of a file chooses. -/
def contentChoices (format : DataFormat) (v : Json) : Choices := fun k =>
  tableChoice format (v.part? tableNames k.table) k

variable {format : DataFormat} {table : Option Json}

/-- A field that has a value of its own when it is missing. -/
theorem eq_of_fieldOr {α : Type} {missing a : α} {read : Json → Option α} {x : Option Json}
    (h : Json.fieldOr missing read x = some a) : a = (x.bind read).getD missing := by
  cases x with
  | none => exact (Option.some.inj h).symm
  | some v =>
    have hread : read v = some a := h
    simp [hread]

/-- A field that may be null. -/
theorem eq_of_fieldOr_nullOr {α : Type} {a : Option α} {read : Json → Option α} {x : Option Json}
    (hnull : read .null = none) (h : Json.fieldOr none (Json.nullOr read) x = some a) :
    a = x.bind read := by
  cases x with
  | none => exact (Option.some.inj h).symm
  | some v =>
    cases v with
    | null =>
      obtain rfl : none = a := Option.some.inj h
      exact hnull.symm
    | _ =>
      obtain ⟨b, hb, rfl⟩ := Option.map_eq_some_iff.1 h
      exact hb.symm

theorem check_eq {c : CheckSettings} (h : Json.fieldOr {} (check? format) table = some c) :
    c = {
      threads := tableChoice format table .threads
      timeout := (tableChoice format table .timeout).getD 30
      failOnReports := (tableChoice format table .failOnReports).getD true
      showProgress := (tableChoice format table .showProgress).getD false } := by
  cases table with
  | none => exact (Option.some.inj h).symm
  | some t =>
    have ht : check? format t = some c := h
    unfold check? at ht
    split at ht
    · next threads timeout fails shows hparts =>
      have hnames := DataFormat.record?_eq (by decide) hparts
      simp only [List.map_cons, List.map_nil, List.cons.injEq, and_true] at hnames
      obtain ⟨rfl, rfl, rfl, rfl⟩ := hnames
      simp only [Option.bind_eq_bind, Option.bind_eq_some_iff, Option.pure_def,
        Option.some.injEq] at ht
      obtain ⟨a, ha, b, hb, d, hd, e, he, rfl⟩ := ht
      rw [eq_of_fieldOr_nullOr rfl ha, eq_of_fieldOr hb, eq_of_fieldOr hd, eq_of_fieldOr he]
      rfl
    · cases ht

theorem sessions_eq {c : SessionSettings}
    (h : Json.fieldOr {} (sessions? format) table = some c) :
    c = {
      maxSessions := (tableChoice format table .maxSessions).getD 256
      timeToLive := (tableChoice format table .timeToLive).getD 600 } := by
  cases table with
  | none => exact (Option.some.inj h).symm
  | some t =>
    have ht : sessions? format t = some c := h
    unfold sessions? at ht
    split at ht
    · next most live hparts =>
      have hnames := DataFormat.record?_eq (by decide) hparts
      simp only [List.map_cons, List.map_nil, List.cons.injEq, and_true] at hnames
      obtain ⟨rfl, rfl⟩ := hnames
      simp only [Option.bind_eq_bind, Option.bind_eq_some_iff, Option.pure_def,
        Option.some.injEq] at ht
      obtain ⟨a, ha, b, hb, rfl⟩ := ht
      rw [eq_of_fieldOr ha, eq_of_fieldOr hb]
      rfl
    · cases ht

theorem output_eq {c : OutputSettings} (h : Json.fieldOr {} (output? format) table = some c) :
    c = {
      format := (tableChoice format table .format).getD .human
      verbose := (tableChoice format table .verbose).getD false
      quiet := (tableChoice format table .quiet).getD false } := by
  cases table with
  | none => exact (Option.some.inj h).symm
  | some t =>
    have ht : output? format t = some c := h
    unfold output? at ht
    split at ht
    · next outputFormat verbose quiet hparts =>
      have hnames := DataFormat.record?_eq (by decide) hparts
      simp only [List.map_cons, List.map_nil, List.cons.injEq, and_true] at hnames
      obtain ⟨rfl, rfl, rfl⟩ := hnames
      simp only [Option.bind_eq_bind, Option.bind_eq_some_iff, Option.pure_def,
        Option.some.injEq] at ht
      obtain ⟨a, ha, b, hb, d, hd, rfl⟩ := ht
      rw [eq_of_fieldOr ha, eq_of_fieldOr hb, eq_of_fieldOr hd]
      rfl
    · cases ht

/-- A field with a list, which chooses something only when it is not empty. -/
theorem some_listOr_fieldOr {base l : List String} {x : Option Json}
    (h : Json.fieldOr base Json.strings? x = some l) :
    some (listOr base l) =
      (x.bind fun v => (Json.strings? v).filter fun l => !l.isEmpty).or (some base) := by
  rw [some_listOr]
  cases x with
  | none =>
    obtain rfl : base = l := Option.some.inj h
    split <;> rfl
  | some v =>
    have hv : Json.strings? v = some l := h
    rw [Option.bind_some, hv, Option.filter_some]
    cases l <;> rfl

theorem files_eq {c : FileSettings} (h : Json.fieldOr {} (files? format) table = some c) :
    some (listOr initial.files.extensions c.extensions) =
        (tableChoice format table .extensions).or (some initial.files.extensions) ∧
      some (listOr initial.files.includePatterns c.includePatterns) =
        (tableChoice format table .includePatterns).or (some initial.files.includePatterns) ∧
      some (listOr initial.files.excludePatterns c.excludePatterns) =
        (tableChoice format table .excludePatterns).or (some initial.files.excludePatterns) ∧
      c.maxDepth = tableChoice format table .maxDepth := by
  cases table with
  | none =>
    obtain rfl := Option.some.inj h
    exact ⟨rfl, rfl, rfl, rfl⟩
  | some t =>
    have ht : files? format t = some c := h
    unfold files? at ht
    split at ht
    · next extensions includes excludes depth hparts =>
      have hnames := DataFormat.record?_eq (by decide) hparts
      simp only [List.map_cons, List.map_nil, List.cons.injEq, and_true] at hnames
      obtain ⟨rfl, rfl, rfl, rfl⟩ := hnames
      simp only [Option.bind_eq_bind, Option.bind_eq_some_iff, Option.pure_def,
        Option.some.injEq] at ht
      obtain ⟨a, ha, b, hb, d, hd, e, he, rfl⟩ := ht
      have hdepth := eq_of_fieldOr_nullOr rfl he
      exact ⟨some_listOr_fieldOr ha, some_listOr_fieldOr hb, some_listOr_fieldOr hd, hdepth⟩
    · cases ht

theorem vocabulary_eq {c : Option String}
    (h : Json.fieldOr none (vocabulary? format) table = some c) :
    c = tableChoice format table .vocabulary := by
  cases table with
  | none => exact (Option.some.inj h).symm
  | some t =>
    have ht : vocabulary? format t = some c := h
    unfold vocabulary? at ht
    split at ht
    · next path hparts =>
      have hnames := DataFormat.record?_eq (by decide) hparts
      simp only [List.map_cons, List.map_nil, List.cons.injEq, and_true] at hnames
      obtain rfl := hnames
      have hpath := eq_of_fieldOr_nullOr rfl ht
      exact hpath
    · cases ht

/-- **A file lies over the settings that hold by default.** -/
theorem chosen_laidOver {v : Json} {file : Settings} (h : ofJson? format v = some file) :
    (file.laidOver initial).chosen = (contentChoices format v).above initial.chosen := by
  unfold ofJson? at h
  split at h
  · next check sessions output files vocabulary hparts =>
    have hnames := DataFormat.record?_eq (by decide) hparts
    simp only [List.map_cons, List.map_nil, List.cons.injEq, and_true] at hnames
    obtain ⟨rfl, rfl, rfl, rfl, rfl⟩ := hnames
    simp only [Option.bind_eq_bind, Option.bind_eq_some_iff, Option.pure_def,
      Option.some.injEq] at h
    obtain ⟨check, hcheck, sessions, hsessions, output, houtput, files, hfiles, vocabulary,
      hvocabulary, rfl⟩ := h
    obtain ⟨hextensions, hincludes, hexcludes, hdepth⟩ := files_eq hfiles
    rw [check_eq hcheck, sessions_eq hsessions, output_eq houtput, vocabulary_eq hvocabulary]
    funext k
    cases k with
    | threads | vocabulary => rfl
    | maxDepth => exact congrArg (Option.or · none) hdepth
    | extensions => exact hextensions
    | includePatterns => exact hincludes
    | excludePatterns => exact hexcludes
    | _ => exact Option.or_some.symm
  · cases h

/-! ## Files -/

/-- The formats in which the file at a path may write settings, in the order in which they are
tried: the extension tells the format. -/
def formatsOf (path : String) : List DataFormat :=
  match PathText.extension? path with
  | some "toml" => [.toml]
  | some "json" => [.json]
  | some _ => []
  | none => [.toml, .json]

/-- There is a file with settings, but it cannot be read, or it writes settings in none of the
formats in which it may. -/
def BadFile (files : FileTree) (env : Environment) (a : Arguments) : Prop :=
  ∃ path, path? files env a = some path ∧
    ((∃ fault, files.readText path = .error fault) ∨
      ∃ text, files.readText path = .ok text ∧
        ∀ format ∈ formatsOf path, parse? format text = none)

/-- What the file with settings chooses. -/
inductive FileLayer (files : FileTree) (env : Environment) (a : Arguments) : Choices → Prop
  /-- There is no file. -/
  | absent (hpath : path? files env a = none) : FileLayer files env a fun _ => none
  /-- The file writes a value in the first format in which it writes settings. -/
  | content {path text : String} {format : DataFormat} {earlier later : List DataFormat} {v : Json}
      {file : Settings} (hpath : path? files env a = some path)
      (htext : files.readText path = .ok text)
      (hformats : formatsOf path = earlier ++ format :: later)
      (hearlier : ∀ f ∈ earlier, parse? f text = none) (hcontent : format.parse? text = some v)
      (hfile : ofJson? format v = some file) : FileLayer files env a (contentChoices format v)

theorem toOption_ofText (format : DataFormat) (text : String) :
    (ofText format text).toOption = parse? format text := by
  unfold ofText
  cases parse? format text with
  | some s => rfl
  | none => cases format <;> rfl

/-- A file writes the settings that it writes in the first format in which it writes any. -/
theorem toOption_ofFile {files : FileTree} {path text : String}
    (htext : files.readText path = .ok text) :
    (ofFile files path).toOption = (formatsOf path).findSome? fun f => parse? f text := by
  unfold ofFile
  rw [htext]
  dsimp only
  split
  · next h =>
    have hformats : formatsOf path = [.toml] := by simp [formatsOf, h]
    rw [hformats, toOption_ofText]
    simp
  · next h =>
    have hformats : formatsOf path = [.json] := by simp [formatsOf, h]
    rw [hformats, toOption_ofText]
    simp
  · next e htoml hjson h =>
    have hformats : formatsOf path = [] := by
      unfold formatsOf
      split <;> simp_all
    rw [hformats]
    rfl
  · next h =>
    have hformats : formatsOf path = [.toml, .json] := by rw [formatsOf, h]
    rw [hformats, List.findSome?_cons, ← toOption_ofText .toml]
    cases ofText .toml text with
    | ok s => rfl
    | error fault =>
      rw [toOption_ofText]
      simp [Except.toOption]

/-- The settings of the file over those that hold by default. -/
def withFile (files : FileTree) (env : Environment) (a : Arguments) :
    Except SettingsFault Settings :=
  match path? files env a with
  | some path => (ofFile files path).map fun s => s.laidOver initial
  | none => pure initial

variable {files : FileTree} {env : Environment} {a : Arguments}

theorem BadFile.withFile (h : BadFile files env a) :
    ∃ fault, withFile files env a = .error fault := by
  obtain ⟨path, hpath, h⟩ := h
  rw [Settings.withFile, hpath]
  dsimp only
  have hnone : (ofFile files path).toOption = none := by
    rcases h with ⟨fault, hfault⟩ | ⟨text, htext, hformats⟩
    · rw [ofFile, hfault]
      rfl
    · rw [toOption_ofFile htext, List.findSome?_eq_none_iff]
      exact hformats
  cases hfile : ofFile files path with
  | error fault => exact ⟨fault, rfl⟩
  | ok s => simp [hfile, Except.toOption] at hnone

theorem FileLayer.withFile {file : Choices} (h : FileLayer files env a file) :
    ∃ s, withFile files env a = .ok s ∧ s.chosen = file.above initial.chosen := by
  cases h with
  | absent hpath =>
    rw [Settings.withFile, hpath]
    exact ⟨initial, rfl, rfl⟩
  | @content path text format earlier later v file hpath htext hformats hearlier hcontent hfile =>
    have hparse : parse? format text = some file := by
      rw [parse?, hcontent, Option.bind_some, hfile]
    have hsome : (ofFile files path).toOption = some file := by
      rw [toOption_ofFile htext, List.findSome?_eq_some_iff]
      exact ⟨earlier, format, later, hformats, hparse, hearlier⟩
    rw [Settings.withFile, hpath]
    dsimp only
    cases hread : ofFile files path with
    | error fault => simp [hread, Except.toOption] at hsome
    | ok s =>
      obtain rfl : s = file := by simpa [hread, Except.toOption] using hsome
      exact ⟨s.laidOver initial, rfl, chosen_laidOver hfile⟩

/-- A file with settings is bad, or it chooses something, if nothing at all. -/
theorem badFile_or_fileLayer (files : FileTree) (env : Environment) (a : Arguments) :
    BadFile files env a ∨ ∃ file, FileLayer files env a file := by
  cases hpath : path? files env a with
  | none => exact .inr ⟨_, .absent hpath⟩
  | some path =>
    cases htext : files.readText path with
    | error fault => exact .inl ⟨path, hpath, .inl ⟨fault, htext⟩⟩
    | ok text =>
      cases hfile : (formatsOf path).findSome? fun f => parse? f text with
      | none => exact .inl ⟨path, hpath, .inr ⟨text, htext, List.findSome?_eq_none_iff.1 hfile⟩⟩
      | some file =>
        obtain ⟨earlier, format, later, hformats, hparse, hearlier⟩ :=
          List.findSome?_eq_some_iff.1 hfile
        obtain ⟨v, hcontent, hv⟩ := Option.bind_eq_some_iff.1 hparse
        exact .inr ⟨_, .content hpath htext hformats hearlier hcontent hv⟩

end Settings

end HAtom

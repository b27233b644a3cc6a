import HAtom.Proofs.Accepted
import HAtom.Proofs.EntryFindings
import HAtom.Proofs.Partition

/-!
# How often an entry reports what

The rules of an entry, told apart by the problems that they report: whether nodes of a property lie
inside each other, how many there are, what they hold, and whether there is a body. What each rule
reports is a matter of the nodes that count as its property, `members`, so that a node that counts
as one property counts for nothing after it, and is reported once at most by the same rule.

* `EntryRule` and `Problem.rule?` tell the rules apart, and `byRule` are the findings of one.
* `byRule_entryEffect` is what a rule finds in an entry.
* `Pass.checkEntry_reported`: all that an entry reports, rule by rule.
-/

namespace HAtom

open Markup

/-! ## Rules and their problems -/

/-- The rules of an entry. -/
inductive EntryRule
  /-- Nodes of a property do not lie inside each other. -/
  | nesting (q : Property)
  /-- A property occurs as often as it may. -/
  | count (q : Property)
  /-- Nodes of a property hold what they are to hold. -/
  | contents (q : Property)
  /-- There is content or a summary. -/
  | body
  deriving DecidableEq, Repr

/-- The property with a keyword. -/
def Property.ofKeyword? (keyword : String) : Option Property :=
  all.find? fun q => q.keyword == keyword

/-- The rule of an entry that reports a problem. -/
def Problem.rule? : Problem → Option EntryRule
  | nested keyword => (Property.ofKeyword? keyword).map .nesting
  | missing q | repeated q => some (.count q)
  | emptyDate which | badDate which _ => some (.contents (.date which))
  | blankLink keyword => (Property.ofKeyword? keyword).map .contents
  | blankKey .entry | duplicateKey .entry _ => some (.contents .key)
  | authorWithoutCard | cardWithoutName | repeatedName | notMail => some (.contents .author)
  | noContent => some .body
  | blankKey .feed | duplicateKey .feed _ | emptyFeed | misplaced _ _ _ | remark _ => none

/-- The findings of a rule. -/
def byRule (rule : EntryRule) (fs : List Finding) : List Finding :=
  fs.filter (·.problem.rule? = some rule)

theorem Property.ofKeyword?_keyword (q : Property) : ofKeyword? q.keyword = some q := by
  cases q with
  | date which => cases which <;> decide
  | _ => decide

section ByRule

variable {rule : EntryRule} {fs gs : List Finding}

theorem byRule_append : byRule rule (fs ++ gs) = byRule rule fs ++ byRule rule gs :=
  List.filter_append ..

theorem byRule_flatMap {α : Type} (l : List α) (g : α → List Finding) :
    byRule rule (l.flatMap g) = l.flatMap fun a => byRule rule (g a) :=
  List.filter_flatMap ..

/-- The findings of a rule are those of that rule and no other. -/
theorem byRule_of_rule {other : EntryRule} (h : ∀ f ∈ fs, f.problem.rule? = some other) :
    byRule rule fs = if other = rule then fs else [] := by
  split
  · next hrule => exact List.filter_eq_self.2 fun f hf => decide_eq_true (hrule ▸ h f hf)
  · next hrule =>
    refine List.filter_eq_nil_iff.2 fun f hf hf' => hrule ?_
    exact Option.some.inj ((h f hf).symm.trans (of_decide_eq_true hf'))

end ByRule

/-! ## What a rule finds -/

variable {view found : List Tree} {t : Tree} {q : Property} {f : Finding}

theorem rule_of_mem_nestedFindings {ts : List Tree} (hf : f ∈ nestedFindings q.keyword ts) :
    f.problem.rule? = some (.nesting q) := by
  rw [(mem_nestedFindings hf).1, Problem.rule?, q.ofKeyword?_keyword, Option.map_some]

theorem rule_of_mem_countFindings (hf : f ∈ countFindings t q found) :
    f.problem.rule? = some (.count q) := by
  unfold countFindings at hf
  split at hf
  · exact absurd hf List.not_mem_nil
  · obtain rfl := List.mem_singleton.1 hf
    rfl
  · obtain ⟨s, -, rfl⟩ := List.mem_map.1 hf
    rfl

theorem rule_of_mem_cardEffect (hf : f ∈ (cardEffect view t).findings) :
    f.problem.rule? = some (.contents .author) := by
  rw [findings_cardEffect] at hf
  rcases List.mem_append.1 hf with hf | hf
  · unfold nameFindings at hf
    split at hf
    · obtain rfl := List.mem_singleton.1 hf
      rfl
    · obtain ⟨s, -, rfl⟩ := List.mem_map.1 hf
      rfl
  · obtain ⟨s, -, rfl⟩ := List.mem_map.1 hf
    rfl

theorem rule_of_mem_authorEffect (hf : f ∈ (authorEffect view t).findings) :
    f.problem.rule? = some (.contents .author) := by
  rw [findings_authorEffect] at hf
  split at hf
  · exact rule_of_mem_cardEffect hf
  · split at hf
    · obtain rfl := List.mem_singleton.1 hf
      rfl
    · obtain ⟨card, -, hf⟩ := List.mem_flatMap.1 hf
      exact rule_of_mem_cardEffect hf

theorem rule_of_mem_occurrenceEffect (hf : f ∈ (occurrenceEffect q view t).findings) :
    f.problem.rule? = some (.contents q) := by
  cases q with
  | date which =>
    simp only [occurrenceEffect, dateFindings, Effect.findings_found] at hf
    split at hf
    · obtain rfl := List.mem_singleton.1 hf
      rfl
    · split at hf
      · obtain rfl := List.mem_singleton.1 hf
        rfl
      · exact absurd hf List.not_mem_nil
  | author => exact rule_of_mem_authorEffect hf
  | bookmark | tag =>
    simp only [occurrenceEffect, linkFindings, Effect.findings_found] at hf
    split at hf
    · obtain rfl := List.mem_singleton.1 hf
      rfl
    · exact absurd hf List.not_mem_nil
  | title | summary | content | key => exact absurd hf List.not_mem_nil

theorem rule_of_mem_contentsEffect (hf : f ∈ (contentsEffect q view found).findings) :
    f.problem.rule? = some (.contents q) := by
  by_cases hq : q = .key
  · rw [contentsEffect, if_pos hq] at hf
    rcases (mem_keyFindings hf).1 with h | ⟨value, h⟩
    · rw [h, hq]
      rfl
    · rw [h, hq]
      rfl
  · rw [findings_contentsEffect hq] at hf
    obtain ⟨s, -, hf⟩ := List.mem_flatMap.1 hf
    exact rule_of_mem_occurrenceEffect hf

/-- What a rule finds in an entry with these nodes in sight. -/
def ruleFindings (view : List Tree) (entry : Tree) : EntryRule → List Finding
  | .nesting q => nestedFindings q.keyword (members view q)
  | .count q => countFindings entry q (tops (members view q))
  | .contents q => (contentsEffect q (free view q.before) (tops (members view q))).findings
  | .body => if bodyCount view Property.all == 0 then [⟨.noContent, entry.head.label⟩] else []

/-- A property contributes to what all of them contribute to, and no other does. -/
theorem flatMap_all_ite {α : Type} (q : Property) (g : Property → List α) :
    (Property.all.flatMap fun r => if r = q then g r else []) = g q := by
  cases q with
  | date which => cases which <;> simp [Property.all]
  | _ => simp [Property.all]

theorem byRule_propertyEffect (rule : EntryRule) (view : List Tree) (entry : Tree) (q : Property) :
    byRule rule (propertyEffect (free view q.before) entry q).findings =
      (if .nesting q = rule then ruleFindings view entry (.nesting q) else []) ++
        ((if .count q = rule then ruleFindings view entry (.count q) else []) ++
          (if .contents q = rule then ruleFindings view entry (.contents q) else [])) := by
  rw [findings_propertyEffect, byRule_append, byRule_append,
    byRule_of_rule fun _ => rule_of_mem_nestedFindings,
    byRule_of_rule fun _ => rule_of_mem_countFindings,
    byRule_of_rule fun _ => rule_of_mem_contentsEffect]
  rfl

/-- **What each rule finds in an entry.** -/
theorem byRule_entryEffect (rule : EntryRule) (view : List Tree) (entry : Tree) :
    byRule rule (entryEffect view entry).findings = ruleFindings view entry rule := by
  have hbody : ∀ f ∈ ruleFindings view entry .body, f.problem.rule? = some .body := by
    intro f hf
    dsimp only [ruleFindings] at hf
    split at hf
    · obtain rfl := List.mem_singleton.1 hf
      rfl
    · exact absurd hf List.not_mem_nil
  rw [findings_entryEffect, byRule_append, byRule_flatMap]
  simp only [byRule_propertyEffect]
  change _ ++ byRule rule (ruleFindings view entry .body) = _
  rw [byRule_of_rule hbody]
  cases rule with
  | nesting q =>
    simp only [EntryRule.nesting.injEq, reduceCtorEq, if_false, List.append_nil]
    exact flatMap_all_ite q fun r => ruleFindings view entry (.nesting r)
  | count q =>
    simp only [EntryRule.count.injEq, reduceCtorEq, if_false, List.append_nil, List.nil_append]
    exact flatMap_all_ite q fun r => ruleFindings view entry (.count r)
  | contents q =>
    simp only [EntryRule.contents.injEq, reduceCtorEq, if_false, List.append_nil, List.nil_append]
    exact flatMap_all_ite q fun r => ruleFindings view entry (.contents r)
  | body => simp

/-- All that an entry finds is found by one of its rules. -/
theorem exists_rule_of_mem_entryEffect (hf : f ∈ (entryEffect view t).findings) :
    ∃ rule, f.problem.rule? = some rule := by
  rw [findings_entryEffect, List.mem_append, List.mem_flatMap] at hf
  rcases hf with ⟨q, -, hf⟩ | hf
  · rw [findings_propertyEffect, List.mem_append, List.mem_append] at hf
    rcases hf with hf | hf | hf
    · exact ⟨_, rule_of_mem_nestedFindings hf⟩
    · exact ⟨_, rule_of_mem_countFindings hf⟩
    · exact ⟨_, rule_of_mem_contentsEffect hf⟩
  · split at hf
    · obtain rfl := List.mem_singleton.1 hf
      exact ⟨.body, rfl⟩
    · exact absurd hf List.not_mem_nil

/-! ## What is found, node by node -/

/-- The nodes of a list that are not outermost are the others. -/
theorem length_filter_not_mem_tops (ts : List Tree) :
    (ts.filter fun t => t ∉ tops ts).length = ts.length - (tops ts).length := by
  have htops : (ts.filter fun t => decide (t ∈ tops ts)) = tops ts := by
    refine List.filter_congr fun t ht => decide_eq_decide.2 ?_
    rw [mem_tops]
    exact and_iff_right ht
  have hsum := List.length_eq_length_filter_add (l := ts) fun t => decide (t ∈ tops ts)
  rw [htops] at hsum
  have hnot : (ts.filter fun t => !decide (t ∈ tops ts)) = ts.filter fun t => t ∉ tops ts :=
    List.filter_congr fun t _ => decide_not.symm
  rw [hnot] at hsum
  omega

/-- A list made of one element at most for each of another. -/
theorem flatMap_ite_singleton {α β : Type} (p : α → Bool) (g : α → β) (l : List α) :
    (l.flatMap fun a => if p a then [g a] else []) = (l.filter p).map g := by
  induction l with
  | nil => rfl
  | cons a rest ih =>
    rw [List.flatMap_cons, List.filter_cons, ih]
    split <;> rfl

theorem countFindings_of_atMostOne (entry : Tree) (hq : q.cardinality = .atMostOne) :
    countFindings entry q found = (found.drop 1).map fun t => ⟨.repeated q, t.head.label⟩ := by
  unfold countFindings
  rw [hq]

theorem countFindings_of_any (entry : Tree) (hq : q.cardinality = .any) :
    countFindings entry q found = [] := by
  unfold countFindings
  rw [hq]

/-- Whether a node holds no date: nothing, or something else. -/
def lacksDate (t : Tree) : Bool := (dateOf t).isEmpty || !IsoDate.isValid (dateOf t)

/-- What is wrong with a date that is none. -/
def dateProblem (which : DateProperty) (t : Tree) : Problem :=
  if (dateOf t).isEmpty then .emptyDate which else .badDate which (dateOf t)

/-- Whether a link has no target, or a blank one. -/
def lacksTarget (t : Tree) : Bool := Text.isBlankText ((t.head.attribute? "href").getD "")

theorem dateFindings_eq (which : DateProperty) (t : Tree) :
    dateFindings which t =
      if lacksDate t then [⟨dateProblem which t, t.head.label⟩] else [] := by
  unfold dateFindings lacksDate dateProblem
  generalize (dateOf t).isEmpty = blank, IsoDate.isValid (dateOf t) = valid
  cases blank <;> cases valid <;> rfl

theorem findings_dateContents (which : DateProperty) (view found : List Tree) :
    (contentsEffect (.date which) view found).findings =
      (found.filter lacksDate).map fun t => ⟨dateProblem which t, t.head.label⟩ := by
  have hne : Property.date which ≠ .key := nofun
  have hdate : ∀ t ∈ found, (occurrenceEffect (.date which) (inside t view) t).findings =
      if lacksDate t then [⟨dateProblem which t, t.head.label⟩] else [] := by
    intro t _
    rw [occurrenceEffect, Effect.findings_found, dateFindings_eq]
  rw [findings_contentsEffect hne, List.flatMap_congr hdate]
  exact flatMap_ite_singleton ..

theorem findings_linkContents (hq : q = .bookmark ∨ q = .tag) (view found : List Tree) :
    (contentsEffect q view found).findings =
      (found.filter lacksTarget).map fun t => ⟨.blankLink q.keyword, t.head.label⟩ := by
  have hne : q ≠ .key := by rcases hq with rfl | rfl <;> decide
  rw [findings_contentsEffect hne, ← flatMap_ite_singleton]
  rcases hq with rfl | rfl <;> rfl

theorem findings_plainContents (hq : q = .title ∨ q = .summary ∨ q = .content)
    (view found : List Tree) : (contentsEffect q view found).findings = [] := by
  have hne : q ≠ .key := by rcases hq with rfl | rfl | rfl <;> decide
  rw [findings_contentsEffect hne, List.flatMap_eq_nil_iff]
  intro t _
  rcases hq with rfl | rfl | rfl <;> rfl

/-- There is a body when there are outermost nodes of one of the two kinds. -/
theorem bodyCount_eq_zero (view : List Tree) : bodyCount view Property.all = 0 ↔
    tops (members view .summary) = [] ∧ tops (members view .content) = [] := by
  simp [bodyCount, Property.all]

/-! ## All reports of an entry -/

/-- The nodes found as a property of an entry: the outermost ones that count as it. -/
def foundAs (entry : Tree) (q : Property) : List Tree := tops (members entry.below.trees q)

/-- **The reports of an entry**, rule by rule. -/
structure Reported (entry : Tree) (fs : List Finding) : Prop where
  /-- What counts as a property are the elements below the entry that carry it and lie neither at
  nor below one that counts as a property before it. -/
  members_eq : ∀ q, members entry.below.trees q = entry.below.trees.filter fun t =>
    t.head.isElement ∧ t.head.carries q.carrier q.keyword ∧
      ∀ r ∈ q.before, ∀ s ∈ members entry.below.trees r, t ∉ s.all
  /-- All of them that are not outermost are reported as nested. -/
  nested : ∀ q, byRule (.nesting q) fs =
    ((members entry.below.trees q).filter fun t => t ∉ foundAs entry q).map fun t =>
      ⟨.nested q.keyword, t.head.label⟩
  length_nested : ∀ q, (byRule (.nesting q) fs).length =
    (members entry.below.trees q).length - (foundAs entry q).length
  /-- A title is missing, or all but the first one are reported. -/
  title : byRule (.count .title) fs =
    if foundAs entry .title = [] then [⟨.missing .title, entry.head.label⟩]
    else ((foundAs entry .title).drop 1).map fun t => ⟨.repeated .title, t.head.label⟩
  /-- Of properties that may occur once all but the first node are reported, -/
  repeated : ∀ q : Property, q.cardinality = .atMostOne → byRule (.count q) fs =
    ((foundAs entry q).drop 1).map fun t => ⟨.repeated q, t.head.label⟩
  /-- and of others none. -/
  uncounted : ∀ q : Property, q.cardinality = .any → byRule (.count q) fs = []
  /-- An entry without summary and content is reported once. -/
  body : byRule .body fs =
    if foundAs entry .summary = [] ∧ foundAs entry .content = [] then
      [⟨.noContent, entry.head.label⟩]
    else []
  /-- The outermost nodes that are to hold a date, and hold none, are reported, -/
  date : ∀ which, byRule (.contents (.date which)) fs =
    ((foundAs entry (.date which)).filter lacksDate).map fun t =>
      ⟨dateProblem which t, t.head.label⟩
  /-- and so are links without a target. -/
  link : ∀ q, q = .bookmark ∨ q = .tag → byRule (.contents q) fs =
    ((foundAs entry q).filter lacksTarget).map fun t => ⟨.blankLink q.keyword, t.head.label⟩
  /-- Keys are checked by the rule for keys, -/
  key : byRule (.contents .key) fs = keyFindings .entry [] (foundAs entry .key)
  /-- authors by the rule for authors, -/
  author : byRule (.contents .author) fs = (foundAs entry .author).flatMap fun t =>
    (authorEffect (inside t (free entry.below.trees Property.author.before)) t).findings
  /-- and what other properties hold is not checked. -/
  plain : ∀ q, q = .title ∨ q = .summary ∨ q = .content → byRule (.contents q) fs = []
  /-- There are no other reports. -/
  only : ∀ f ∈ fs, ∃ rule, f.problem.rule? = some rule

theorem members_sublist (view : List Tree) (q : Property) : (members view q).Sublist view :=
  (marked_sublist ..).trans (free_sublist ..)

theorem members_eq_filter {entry : Tree} (hd : entry.below.Distinct) (q : Property) :
    members entry.below.trees q = entry.below.trees.filter fun t =>
      t.head.isElement ∧ t.head.carries q.carrier q.keyword ∧
        ∀ r ∈ q.before, ∀ s ∈ members entry.below.trees r, t ∉ s.all := by
  refine hd.eq_of_sublist (members_sublist _ q) List.filter_sublist fun t => ?_
  rw [mem_members, List.mem_filter, decide_eq_true_iff]
  constructor
  · rintro ⟨⟨ht, hfree⟩, hcarries⟩
    exact ⟨ht, Node.isElement_of_carries hcarries, hcarries, hfree⟩
  · rintro ⟨ht, -, hcarries, hfree⟩
    exact ⟨⟨ht, hfree⟩, hcarries⟩

/-- The reports of an entry below which nothing is hidden. -/
theorem reported_entryEffect {entry : Tree} (hd : entry.below.Distinct) :
    Reported entry (entryEffect entry.below.trees entry).findings := by
  have hnested : ∀ q, byRule (.nesting q) (entryEffect entry.below.trees entry).findings =
      ((members entry.below.trees q).filter fun t => t ∉ foundAs entry q).map fun t =>
        ⟨.nested q.keyword, t.head.label⟩ := by
    intro q
    rw [byRule_entryEffect, ruleFindings, nestedFindings_eq_map,
      nestedIn_eq_filter hd (members_sublist _ q)]
    rfl
  refine
    { members_eq := members_eq_filter hd
      nested := hnested
      length_nested := fun q => ?_
      title := ?_
      repeated := fun q hq => ?_
      uncounted := fun q hq => ?_
      body := ?_
      date := fun which => ?_
      link := fun q hq => ?_
      key := ?_
      author := ?_
      plain := fun q hq => ?_
      only := fun f hf => exists_rule_of_mem_entryEffect hf }
  · rw [hnested, List.length_map]
    exact length_filter_not_mem_tops _
  · rw [byRule_entryEffect, ruleFindings, ← foundAs]
    cases foundAs entry .title <;> rfl
  · rw [byRule_entryEffect, ruleFindings, countFindings_of_atMostOne entry hq]
    rfl
  · rw [byRule_entryEffect, ruleFindings, countFindings_of_any entry hq]
  · rw [byRule_entryEffect, ruleFindings]
    refine if_congr ?_ rfl rfl
    rw [beq_iff_eq, bodyCount_eq_zero]
    rfl
  · rw [byRule_entryEffect, ruleFindings, findings_dateContents]
    rfl
  · rw [byRule_entryEffect, ruleFindings, findings_linkContents hq]
    rfl
  · rw [byRule_entryEffect]
    rfl
  · have hne : Property.author ≠ .key := nofun
    rw [byRule_entryEffect, ruleFindings, findings_contentsEffect hne]
    rfl
  · rw [byRule_entryEffect, ruleFindings, findings_plainContents hq]

/-- **All that an entry reports**, when nothing below it is claimed. Each rule reports what the
nodes that count as its property give it to report, and there are no other reports. -/
theorem Pass.checkEntry_reported {d : Document} (hd : d.WellFormed) {entry : Tree}
    (hentry : entry ∈ d.root.all) (p : Pass)
    (hclear : ∀ l ∈ entry.below.labels, p.isClaimed l = false) :
    ∃ fs, (p.checkEntry entry).findings = p.findings ++ fs ∧ Reported entry fs := by
  have hbelow := hd.below_distinct hentry
  have hview : p.view entry = entry.below.trees := Forest.visible_of_clear hclear
  have hgains := p.gains_checkEntry hbelow
  rw [hview] at hgains
  exact ⟨_, hgains.findings, reported_entryEffect hbelow⟩

set_option maxRecDepth 100000 in
/-- An entry with a title inside a title, a date inside that, and two dates of which one is none. -/
theorem Pass.checkEntry_reported_nested_title :
    ∃ d, Document.parse ("<p class='hentry'><b class='entry-title'><i class='entry-title'/>" ++
        "<u class='updated'/></b><q class='updated'>20090501</q><s class='updated'>x</s></p>") =
          .ok d ∧
      ∃ entry ∈ d.root.all, ∃ fs,
        (Pass.fresh.checkEntry entry).findings = Pass.fresh.findings ++ fs ∧ Reported entry fs ∧
        fs.map (·.problem) = [.nested "entry-title", .repeated (.date .updated),
          .badDate .updated "x", .noContent] := by
  obtain ⟨d, h, entry, hentry, hclear, hproblems⟩ := Document.exists_of_parse
    ("<p class='hentry'><b class='entry-title'><i class='entry-title'/>" ++
      "<u class='updated'/></b><q class='updated'>20090501</q><s class='updated'>x</s></p>")
    (fun d => ∃ entry ∈ d.root.all,
      (∀ l ∈ entry.below.labels, Pass.fresh.isClaimed l = false) ∧
      (Pass.fresh.checkEntry entry).findings.map (·.problem) =
        [.nested "entry-title", .repeated (.date .updated), .badDate .updated "x", .noContent])
    (by decide +kernel)
  obtain ⟨fs, hfs, hreported⟩ :=
    checkEntry_reported (Document.wellFormed_of_parse h) hentry Pass.fresh hclear
  rw [hfs] at hproblems
  exact ⟨d, h, entry, hentry, fs, hfs, hreported, hproblems⟩

end HAtom

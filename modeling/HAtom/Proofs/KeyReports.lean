import HAtom.Proofs.PageReports
import Mathlib.Data.Finset.Card

/-!
# The reports of keys

Which keys of a feed and of an entry are reported, and how often. One cache of titles serves all
feeds and entries of a page; a check forgets what it holds before it looks at its own keys, so that
a key is compared with the keys before it in the same feed or entry and with no others.

* `keyFindings_append`: after some keys the cache holds their titles, the blank ones left out.
* `Check.entryKeys` and `Check.feedKeys` are the keys that the check of an entry or of a feed finds.
* `Markup.Document.KeysReported` is what a page reports of keys, and
  `Markup.Document.keys_reported` that it does so of the keys of each entry and of each feed.
-/

namespace HAtom

open Markup

/-! ## Titles that the cache holds -/

/-- The titles of keys that are not blank. -/
def filledTitles (keys : List Tree) : List String :=
  (keys.map keyTitle).filter fun title => !Text.isBlankText title

section Titles

variable {kind : KeyKind} {seen : List String} {key : Tree} {keys : List Tree}

theorem filledTitles_cons_of_blank (h : Text.isBlankText (keyTitle key)) :
    filledTitles (key :: keys) = filledTitles keys := by
  rw [filledTitles, List.map_cons, List.filter_cons_of_neg (by simp [h]), filledTitles]

theorem filledTitles_cons_of_filled (h : ¬Text.isBlankText (keyTitle key)) :
    filledTitles (key :: keys) = keyTitle key :: filledTitles keys := by
  rw [filledTitles, List.map_cons, List.filter_cons_of_pos (by simp [h]), filledTitles]

theorem mem_filledTitles {title : String} : title ∈ filledTitles keys ↔
    ¬Text.isBlankText title ∧ ∃ key ∈ keys, keyTitle key = title := by
  simp [filledTitles, and_comm]

theorem keyFindings_cons_of_blank (h : Text.isBlankText (keyTitle key)) :
    keyFindings kind seen (key :: keys) =
      ⟨.blankKey kind, key.head.label⟩ :: keyFindings kind seen keys := by
  rw [keyFindings, if_pos h]

theorem keyFindings_cons_of_seen (h : ¬Text.isBlankText (keyTitle key))
    (hseen : keyTitle key ∈ seen) : keyFindings kind seen (key :: keys) =
      ⟨.duplicateKey kind (keyTitle key), key.head.label⟩ :: keyFindings kind seen keys := by
  rw [keyFindings, if_neg h, if_pos (List.contains_iff_mem.2 hseen)]

theorem keyFindings_cons_of_new (h : ¬Text.isBlankText (keyTitle key))
    (hseen : keyTitle key ∉ seen) : keyFindings kind seen (key :: keys) =
      keyFindings kind (seen ++ [keyTitle key]) keys := by
  rw [keyFindings, if_neg h, if_neg (mt List.contains_iff_mem.1 hseen)]

/-- It matters which titles were seen, not in which order or how often. -/
theorem keyFindings_congr {seen' : List String} (h : ∀ title, title ∈ seen ↔ title ∈ seen') :
    keyFindings kind seen keys = keyFindings kind seen' keys := by
  induction keys generalizing seen seen' with
  | nil => rfl
  | cons key rest ih =>
    by_cases hblank : Text.isBlankText (keyTitle key)
    · rw [keyFindings_cons_of_blank hblank, keyFindings_cons_of_blank hblank, ih h]
    by_cases hseen : keyTitle key ∈ seen
    · rw [keyFindings_cons_of_seen hblank hseen,
        keyFindings_cons_of_seen hblank ((h _).1 hseen), ih h]
    · rw [keyFindings_cons_of_new hblank hseen,
        keyFindings_cons_of_new hblank (mt (h _).2 hseen)]
      refine ih fun title => ?_
      rw [List.mem_append, List.mem_append, h]

/-- **Keys are compared with the filled titles of the keys before them**, and with those seen before
all of them. -/
theorem keyFindings_append (kind : KeyKind) (seen : List String) (before after : List Tree) :
    keyFindings kind seen (before ++ after) =
      keyFindings kind seen before ++ keyFindings kind (seen ++ filledTitles before) after := by
  induction before generalizing seen with
  | nil => rw [filledTitles, List.map_nil, List.filter_nil, List.append_nil]; rfl
  | cons key rest ih =>
    rw [List.cons_append]
    by_cases hblank : Text.isBlankText (keyTitle key)
    · rw [keyFindings_cons_of_blank hblank, keyFindings_cons_of_blank hblank, ih,
        filledTitles_cons_of_blank hblank]
      rfl
    rw [filledTitles_cons_of_filled hblank]
    by_cases hseen : keyTitle key ∈ seen
    · -- the title is in the cache already
      have hcache : ∀ title, title ∈ seen ++ filledTitles rest ↔
          title ∈ seen ++ keyTitle key :: filledTitles rest := by
        intro title
        simp only [List.mem_append, List.mem_cons]
        refine ⟨Or.imp_right .inr, ?_⟩
        rintro (h | rfl | h)
        · exact .inl h
        · exact .inl hseen
        · exact .inr h
      rw [keyFindings_cons_of_seen hblank hseen, keyFindings_cons_of_seen hblank hseen, ih,
        keyFindings_congr hcache]
      rfl
    · rw [keyFindings_cons_of_new hblank hseen, keyFindings_cons_of_new hblank hseen, ih,
        List.append_assoc]
      rfl

end Titles

/-! ## What is found at one key -/

/-- Whether a problem is one of keys of this kind. -/
def Problem.isKey (kind : KeyKind) : Problem → Bool
  | blankKey other | duplicateKey other _ => other == kind
  | _ => false

/-- Whether a problem is that a key of this kind has the title of another. -/
def Problem.isDuplicate (kind : KeyKind) : Problem → Bool
  | duplicateKey other _ => other == kind
  | _ => false

section Problems

variable {kind : KeyKind} {problem : Problem}

theorem Problem.isKey_of_isDuplicate (h : problem.isDuplicate kind) : problem.isKey kind := by
  cases problem with
  | duplicateKey other value => exact h
  | _ => exact absurd h Bool.false_ne_true

/-- Problems of the keys of entries belong to the rule of an entry for keys. -/
theorem Problem.rule?_of_isKey (h : problem.isKey .entry) :
    problem.rule? = some (.contents .key) := by
  cases problem with
  | blankKey other =>
    obtain rfl := eq_of_beq h
    rfl
  | duplicateKey other value =>
    obtain rfl := eq_of_beq h
    rfl
  | _ => exact absurd h Bool.false_ne_true

theorem Problem.not_isKey_of_inEntry (h : problem.inEntry) : ¬problem.isKey .feed := by
  cases problem with
  | blankKey other =>
    obtain rfl := eq_of_beq h
    exact Bool.false_ne_true
  | duplicateKey other value =>
    obtain rfl := eq_of_beq h
    exact Bool.false_ne_true
  | _ => exact Bool.false_ne_true

end Problems

section Keys

variable {kind : KeyKind} {seen : List String} {keys : List Tree} {f : Finding}

theorem isKey_of_mem_keyFindings (hf : f ∈ keyFindings kind seen keys) : f.problem.isKey kind := by
  rcases (mem_keyFindings hf).1 with h | ⟨value, h⟩
  · rw [h]
    exact beq_self_eq_true kind
  · rw [h]
    exact beq_self_eq_true kind

/-- What is found at a key depends on the keys before it, when no other key has its label. -/
theorem countP_keyFindings {before after : List Tree} {key : Tree}
    (hlabels : ((before ++ key :: after).map (·.head.label)).Nodup) {p : Finding → Bool}
    (hp : ∀ f, p f → f.label = key.head.label) :
    (keyFindings kind [] (before ++ key :: after)).countP p =
      (keyFindings kind (filledTitles before) [key]).countP p := by
  rw [List.map_append, List.map_cons, List.nodup_append, List.nodup_cons] at hlabels
  obtain ⟨-, ⟨hafter, -⟩, hbefore⟩ := hlabels
  have hnone : ∀ (seen : List String) (others : List Tree),
      key.head.label ∉ others.map (·.head.label) → (keyFindings kind seen others).countP p = 0 := by
    intro seen others hothers
    refine List.countP_eq_zero.2 fun f hf hpf => hothers ?_
    obtain ⟨other, hother, hlabel⟩ := (mem_keyFindings hf).2
    exact List.mem_map.2 ⟨other, hother, hlabel.trans (hp f hpf)⟩
  have hsplit : key :: after = [key] ++ after := rfl
  rw [keyFindings_append, hsplit, keyFindings_append, List.nil_append, List.countP_append,
    List.countP_append, hnone _ after hafter, Nat.add_zero, hnone _ before, Nat.zero_add]
  exact fun h => hbefore _ h _ List.mem_cons_self rfl

/-- **A key is found blank** when its title is. -/
theorem count_blankKey (seen : List String) (key : Tree) :
    (keyFindings kind seen [key]).count ⟨.blankKey kind, key.head.label⟩ =
      if Text.isBlankText (keyTitle key) then 1 else 0 := by
  by_cases hblank : Text.isBlankText (keyTitle key)
  · rw [keyFindings_cons_of_blank hblank, if_pos hblank]
    exact List.count_singleton_self
  rw [if_neg hblank]
  by_cases hseen : keyTitle key ∈ seen
  · rw [keyFindings_cons_of_seen hblank hseen]
    exact List.count_singleton.trans (if_neg (by simp))
  · rw [keyFindings_cons_of_new hblank hseen]
    rfl

/-- **A key is found to be a duplicate** when its title is filled and was seen. -/
theorem count_duplicateKey (seen : List String) (key : Tree) (value : String) :
    (keyFindings kind seen [key]).count ⟨.duplicateKey kind value, key.head.label⟩ =
      if value = keyTitle key ∧ ¬Text.isBlankText value ∧ value ∈ seen then 1 else 0 := by
  by_cases hvalue : value = keyTitle key
  · subst hvalue
    by_cases hblank : Text.isBlankText (keyTitle key)
    · rw [keyFindings_cons_of_blank hblank, if_neg fun h => h.2.1 hblank]
      exact List.count_singleton.trans (if_neg (by simp))
    by_cases hseen : keyTitle key ∈ seen
    · rw [keyFindings_cons_of_seen hblank hseen, if_pos ⟨rfl, hblank, hseen⟩]
      exact List.count_singleton_self
    · rw [keyFindings_cons_of_new hblank hseen, if_neg fun h => hseen h.2.2]
      rfl
  · rw [if_neg fun h => hvalue h.1]
    refine List.count_eq_zero.2 fun hf => hvalue ?_
    rw [keyFindings] at hf
    split at hf
    · cases List.mem_singleton.1 hf
    · split at hf
      · cases List.mem_singleton.1 hf
        rfl
      · exact absurd hf List.not_mem_nil

/-- **How many keys are found to be duplicates**: all with a filled title, but one for each title
that was not seen before. -/
theorem countP_isDuplicate (kind : KeyKind) (seen : List String) (keys : List Tree) :
    (keyFindings kind seen keys).countP (·.problem.isDuplicate kind) +
      ((filledTitles keys).toFinset \ seen.toFinset).card = (filledTitles keys).length := by
  induction keys generalizing seen with
  | nil => simp [keyFindings, filledTitles]
  | cons key rest ih =>
    by_cases hblank : Text.isBlankText (keyTitle key)
    · rw [keyFindings_cons_of_blank hblank, filledTitles_cons_of_blank hblank,
        List.countP_cons_of_neg (by exact Bool.false_ne_true), ih]
    rw [filledTitles_cons_of_filled hblank, List.length_cons, List.toFinset_cons]
    by_cases hseen : keyTitle key ∈ seen
    · rw [keyFindings_cons_of_seen hblank hseen,
        List.countP_cons_of_pos (by exact beq_self_eq_true kind),
        Finset.insert_sdiff_of_mem _ (List.mem_toFinset.2 hseen), Nat.add_right_comm, ih]
    · -- the title is the first of its kind, and seen from here on
      have hinsert : insert (keyTitle key) (filledTitles rest).toFinset \ seen.toFinset =
          insert (keyTitle key)
            ((filledTitles rest).toFinset \ (seen ++ [keyTitle key]).toFinset) := by
        ext title
        simp only [Finset.mem_sdiff, Finset.mem_insert, List.mem_toFinset, List.mem_append,
          List.mem_singleton]
        by_cases htitle : title = keyTitle key
        · simp [htitle, hseen]
        · simp [htitle]
      have hnew : keyTitle key ∉ (filledTitles rest).toFinset \ (seen ++ [keyTitle key]).toFinset :=
        fun h => (Finset.mem_sdiff.1 h).2 (by simp)
      rw [keyFindings_cons_of_new hblank hseen, hinsert, Finset.card_insert_of_notMem hnew,
        ← Nat.add_assoc, ih]

end Keys

/-! ## The keys that a check finds -/

/-- The keys that the check of an entry finds, when it has checked the properties before them. -/
def Check.entryKeys (c : Check) : List Tree :=
  ((Pass.checkProperties c.tree Property.key.before.reverse 0 (c.pass.forget "title")).2.search
    c.tree Property.key.carrier Property.key.keyword).1

/-- The keys that the check of a feed finds, when it has found the entries. -/
def Check.feedKeys (c : Check) : List Tree :=
  (((c.pass.collect c.tree "class" entryKeyword).2.forget "title").search c.tree "class"
    feedKeyKeyword).1

/-- Properties that have been checked, the key not among them, leave in sight what they do not
cover. -/
theorem Pass.view_checkProperties {entry : Tree} (hd : entry.below.Distinct) {rest : List Property}
    (hkey : .key ∉ rest) {view : List Tree} {done : List Property} {count : Nat} {p : Pass}
    (hview : p.view entry = free view done) :
    (Pass.checkProperties entry rest count p).2.view entry = free view (rest.reverse ++ done) := by
  induction rest generalizing done count p with
  | nil => exact hview
  | cons q rest ih =>
    obtain ⟨hq, hrest⟩ := not_or.1 (mt List.mem_cons.2 hkey)
    rw [Pass.checkProperties, List.reverse_cons, List.append_assoc]
    refine ih hrest ?_
    have hstep := Pass.view_checkProperty hd p (q := q) fun h => absurd h.symm hq
    rw [hview] at hstep
    exact hstep

/-- An entry below which nothing is claimed finds the outermost nodes that count as keys. -/
theorem Check.Clear.entryKeys_eq {c : Check} (h : c.Clear) (hd : c.tree.below.Distinct) :
    c.entryKeys = foundAs c.tree .key := by
  have hview : (c.pass.forget "title").view c.tree = free c.tree.below.trees [] :=
    Forest.visible_of_clear h
  have hkey : Property.key ∉ Property.key.before.reverse := by decide
  rw [Check.entryKeys, Pass.search_fst _ hd, Pass.view_checkProperties hd hkey hview,
    List.reverse_reverse, List.append_nil]
  rfl

/-- A feed of which all is in sight finds the outermost nodes that are keys outside its entries. -/
theorem Check.feedKeys_eq {c : Check} (hd : c.tree.below.Distinct)
    (hview : c.pass.view c.tree = c.tree.below.trees) :
    c.feedKeys = HAtom.feedKeys c.tree.below.trees := by
  have hbeside : ((c.pass.collect c.tree "class" entryKeyword).2.forget "title").view c.tree =
      besideEntries c.tree.below.trees := by
    change (c.pass.collect c.tree "class" entryKeyword).2.view c.tree = _
    rw [Pass.collect_snd _ hd, Pass.view_add, Pass.view_search _ hd, hview]
    rfl
  rw [Check.feedKeys, Pass.search_fst _ hd, hbeside]
  rfl

/-- A run over feeds apart from each other checks each while all of it is in sight. -/
theorem Journal.view_foldl_checkFeed {scope : Tree} (hd : scope.below.Distinct) {ts : List Tree}
    (hin : ∀ t ∈ ts, t ∈ scope.below.trees) (hapart : Apart ts) {j : Journal}
    (hview : ∀ t ∈ ts, j.pass.view t = t.below.trees)
    (hj : ∀ c ∈ j.feeds, c.pass.view c.tree = c.tree.below.trees) :
    ∀ c ∈ (ts.foldl (Journal.checkFeed true) j).feeds,
      c.pass.view c.tree = c.tree.below.trees := by
  induction ts generalizing j with
  | nil => exact hj
  | cons t rest ih =>
    refine ih (fun s hs => hin s (List.mem_cons_of_mem t hs)) (List.pairwise_cons.1 hapart).2
      (Journal.view_checkFeed_rest hd hin hapart hview) fun c hc => ?_
    rw [Journal.feeds_checkFeed, if_pos rfl] at hc
    rcases List.mem_append.1 hc with hc | hc
    · exact hj c hc
    · obtain rfl := List.mem_singleton.1 hc
      exact hview t List.mem_cons_self

namespace Markup.Document

/-- The checks of the feeds of a page, or of the page itself when it has none. -/
def feedChecks (d : Document) : List Check :=
  if d.feeds = [] then [⟨d.root, d.foundFeeds⟩] else d.journal.feeds

variable {d : Document}

theorem trees_feedChecks (hd : d.WellFormed) : d.feedChecks.map Check.tree = d.scopes := by
  unfold feedChecks scopes
  split
  · rfl
  · exact feeds_journal hd

theorem view_feedChecks (hd : d.WellFormed) :
    ∀ c ∈ d.feedChecks, c.pass.view c.tree = c.tree.below.trees := by
  unfold feedChecks
  split
  · next h => exact List.forall_mem_singleton.2 (view_root_of_no_feed hd h)
  · next h =>
    obtain ⟨p, hj⟩ := journal_eq hd
    rw [hj, if_neg h]
    exact Journal.view_foldl_checkFeed hd.distinct (fun _ => mem_of_mem_feeds) (apart_feeds hd)
      (fun feed hfeed => view_feed hd hfeed) fun c hc => absurd hc List.not_mem_nil

/-! ## What a page reports of keys -/

/-- What a page reports of the keys of one feed or of one entry. -/
structure KeysReported (d : Document) (kind : KeyKind) (keys : List Tree) : Prop where
  /-- The keys are nodes of the page in document order. -/
  sorted : keys.Sublist d.root.below.trees
  /-- A key is reported to be blank when it has no title or a blank one. -/
  blank : ∀ key ∈ keys, d.findings.count ⟨.blankKey kind, key.head.label⟩ =
    if Text.isBlankText (keyTitle key) then 1 else 0
  /-- It is reported to be a duplicate, with its title, when the title is not blank and a key before
  it has the same. -/
  duplicate : ∀ before key after, keys = before ++ key :: after → ∀ value,
    d.findings.count ⟨.duplicateKey kind value, key.head.label⟩ =
      if value = keyTitle key ∧ ¬Text.isBlankText value ∧ ∃ other ∈ before, keyTitle other = value
      then 1 else 0
  /-- All keys that are not blank are duplicates but one for each of their titles. -/
  length_duplicates : (d.findings.filter fun f => f.problem.isDuplicate kind ∧
      ∃ key ∈ keys, key.head.label = f.label).length =
    (filledTitles keys).length - (filledTitles keys).toFinset.card

/-- What is reported of keys, when at their nodes the page reports what is found in them alone. -/
theorem keysReported_of_countP (hd : d.WellFormed) {kind : KeyKind} {keys : List Tree}
    (hsub : keys.Sublist d.root.below.trees)
    (h : ∀ p : Finding → Bool,
      (∀ f, p f → f.problem.isKey kind ∧ ∃ key ∈ keys, key.head.label = f.label) →
        d.findings.countP p = (keyFindings kind [] keys).countP p) :
    d.KeysReported kind keys := by
  have hlabels : (keys.map (·.head.label)).Nodup := (hsub.map _).nodup hd.distinct
  have hone : ∀ before key after, keys = before ++ key :: after → ∀ problem : Problem,
      problem.isKey kind → d.findings.count ⟨problem, key.head.label⟩ =
        (keyFindings kind (filledTitles before) [key]).count ⟨problem, key.head.label⟩ := by
    rintro before key after rfl problem hproblem
    refine (h (· == ⟨problem, key.head.label⟩) fun f hf => ?_).trans
      (countP_keyFindings hlabels fun f hf => congrArg Finding.label (eq_of_beq hf))
    obtain rfl := eq_of_beq hf
    exact ⟨hproblem, key, by simp, rfl⟩
  have hkind : ∀ value, (Problem.duplicateKey kind value).isKey kind := fun _ =>
    beq_self_eq_true kind
  refine ⟨hsub, fun key hkey => ?_, fun before key after hkeys value => ?_, ?_⟩
  · obtain ⟨before, after, hkeys⟩ := List.append_of_mem hkey
    rw [hone before key after hkeys (.blankKey kind) (beq_self_eq_true kind), count_blankKey]
  · rw [hone before key after hkeys _ (hkind value), count_duplicateKey]
    refine if_congr (and_congr_right fun _ => and_congr_right fun hfilled => ?_) rfl rfl
    rw [mem_filledTitles]
    exact and_iff_right hfilled
  · have hduplicates := countP_isDuplicate kind [] keys
    rw [List.toFinset_nil, Finset.sdiff_empty] at hduplicates
    rw [← List.countP_eq_length_filter, h]
    · have hall : (keyFindings kind [] keys).countP (fun f => decide (f.problem.isDuplicate kind ∧
          ∃ key ∈ keys, key.head.label = f.label)) =
            (keyFindings kind [] keys).countP (·.problem.isDuplicate kind) := by
        refine List.countP_congr fun f hf => ?_
        rw [decide_eq_true_iff]
        exact and_iff_left (mem_keyFindings hf).2
      rw [hall]
      omega
    · intro f hf
      obtain ⟨hduplicate, hplace⟩ := of_decide_eq_true hf
      exact ⟨Problem.isKey_of_isDuplicate hduplicate, hplace⟩

section Page

variable (hd : d.WellFormed)

include hd

/-- What a page reports of the keys of entries is what a rule of entries finds. -/
theorem keysReported_entry {entry : Tree} (hentry : entry ∈ d.entries) :
    d.KeysReported .entry (foundAs entry .key) := by
  have hpage : entry ∈ d.root.below.trees := mem_of_mem_entry hentry (Tree.mem_all.2 (.inl rfl))
  have hsub : (foundAs entry .key).Sublist entry.below.trees :=
    (tops_sublist _).trans (members_sublist _ .key)
  have hrule : ruleFindings entry.below.trees entry (.contents .key) =
      keyFindings .entry [] (foundAs entry .key) := by
    rw [ruleFindings, contentsEffect, if_pos rfl, Effect.findings_found, foundAs]
  refine keysReported_of_countP hd (hsub.trans (Forest.trees_below_sublist hpage)) fun p hp => ?_
  rw [← hrule]
  refine countP_findings_entry hd hentry (.contents .key) fun f hf => ?_
  obtain ⟨hproblem, key, hkey, hlabel⟩ := hp f hf
  exact ⟨Problem.rule?_of_isKey hproblem, key, Tree.mem_all.2 (.inr (hsub.subset hkey)), hlabel⟩

/-- What a page reports of the keys of feeds, feed by feed. -/
theorem feedKeys_findings : d.findings.filter (·.problem.isKey .feed) =
    d.scopes.flatMap fun scope => keyFindings .feed [] (HAtom.feedKeys scope.below.trees) := by
  have hP : Problem.OfKeysAndEntries (Problem.isKey .feed) :=
    ⟨rfl, rfl, rfl, fun _ _ _ => rfl⟩
  have hnested : Problem.isKey .feed (.nested feedKeyKeyword) = false := rfl
  have hentries : ∀ view : List Tree,
      (entriesEffect view).findings.filter (·.problem.isKey .feed) = [] := by
    intro view
    refine List.filter_eq_nil_iff.2 fun f hf hkey => ?_
    rw [findings_entriesEffect] at hf
    obtain ⟨entry, -, hf⟩ := List.mem_flatMap.1 hf
    exact Problem.not_isKey_of_inEntry (foundIn_entryEffect hf).problem hkey
  rw [filter_findings hd hP]
  refine List.flatMap_congr fun scope _ => ?_
  rw [hentries, List.append_nil, findings_keysEffect, List.filter_append,
    filter_nestedFindings hnested, List.nil_append]
  exact List.filter_eq_self.2 fun f hf => isKey_of_mem_keyFindings hf

theorem keysReported_feed {scope : Tree} (hscope : scope ∈ d.scopes) :
    d.KeysReported .feed (HAtom.feedKeys scope.below.trees) := by
  have hbelow : ∀ s ∈ d.scopes, ∀ key ∈ HAtom.feedKeys s.below.trees,
      key ∈ s.below.trees ∧ key ∈ d.root.below.trees := fun s hs key hkey =>
    ⟨mem_of_mem_feedKeys hkey, (below_scope hs).subset (mem_of_mem_feedKeys hkey)⟩
  have hsub : (HAtom.feedKeys scope.below.trees).Sublist d.root.below.trees :=
    ((tops_sublist _).trans ((marked_sublist ..).trans (uncovered_sublist ..))).trans
      (below_scope hscope)
  refine keysReported_of_countP hd hsub fun p hp => ?_
  have hkind : (d.findings.filter (·.problem.isKey .feed)).countP p = d.findings.countP p := by
    rw [List.countP_filter]
    refine List.countP_congr fun f _ => ?_
    rw [Bool.and_eq_true]
    exact and_iff_left_of_imp fun h => (hp f h).1
  rw [← hkind, feedKeys_findings hd]
  refine countP_flatMap_of_unique (scopes_nodup hd) hscope fun other hother hne f hf hpf => hne ?_
  -- a key of another feed would be a key of this one
  obtain ⟨key, hkey, hlabel⟩ := (hp f hpf).2
  obtain ⟨key', hkey', hlabel'⟩ := (mem_keyFindings hf).2
  obtain rfl := hd.distinct.eq_of_label_eq (hbelow _ hother _ hkey').2 (hbelow _ hscope _ hkey).2
    (hlabel'.trans hlabel.symm)
  exact scope_unique hd hother hscope (hbelow _ hother _ hkey').1 (hbelow _ hscope _ hkey).1

end Page

/-- **What a page reports of keys**: of those that the check of an entry finds, and of those that the
check of a feed finds, or of the page when it has no feeds. No other key has a part in it. -/
theorem keys_reported {text : String} (h : Document.parse text = .ok d) :
    d.journal.pass.findings = d.findings ∧ d.feedChecks.map Check.tree = d.scopes ∧
      (∀ c ∈ d.journal.entries, c.entryKeys = foundAs c.tree .key ∧
        d.KeysReported .entry c.entryKeys) ∧
      ∀ c ∈ d.feedChecks, c.feedKeys = HAtom.feedKeys c.tree.below.trees ∧
        d.KeysReported .feed c.feedKeys := by
  have hd := Document.wellFormed_of_parse h
  refine ⟨d.findings_journal, trees_feedChecks hd, fun c hc => ?_, fun c hc => ?_⟩
  · have hentry := mem_entries_of_journal hd hc
    have hbelow := hd.distinct.below (mem_of_mem_entry hentry (Tree.mem_all.2 (.inl rfl)))
    have hkeys := (clear_journal hd c hc).entryKeys_eq hbelow
    rw [hkeys]
    exact ⟨rfl, keysReported_entry hd hentry⟩
  · have hscope : c.tree ∈ d.scopes := by
      rw [← trees_feedChecks hd]
      exact List.mem_map_of_mem hc
    have hbelow : c.tree.below.Distinct := ((below_scope hscope).map _).nodup hd.distinct
    have hkeys := Check.feedKeys_eq hbelow (view_feedChecks hd c hc)
    rw [hkeys]
    exact ⟨rfl, keysReported_feed hd hscope⟩

set_option maxRecDepth 100000 in
/-- The same title on a key of a feed and on two keys of its entry, around a key without one. -/
theorem keys_reported_in_feed_and_entry :
    ∃ d, Document.parse ("<p class='hfeed'><b class='feed-key' title='k'/><i class='hentry'>" ++
        "<u class='entry-key' title='k'/><u class='entry-key'/><u class='entry-key' title='k'/>" ++
          "</i></p>") = .ok d ∧
      (d.journal.entries.map (·.entryKeys.map keyTitle) = [["k", "", "k"]] ∧
        d.feedChecks.map (·.feedKeys.map keyTitle) = [["k"]] ∧
        (d.findings.map (·.problem)).filter
          (fun problem => problem.isKey .entry || problem.isKey .feed) =
            [.blankKey .entry, .duplicateKey .entry "k"]) ∧
      (∀ c ∈ d.journal.entries, c.entryKeys = foundAs c.tree .key ∧
        d.KeysReported .entry c.entryKeys) ∧
      ∀ c ∈ d.feedChecks, c.feedKeys = HAtom.feedKeys c.tree.below.trees ∧
        d.KeysReported .feed c.feedKeys := by
  obtain ⟨d, h, htitles⟩ := Document.exists_of_parse
    ("<p class='hfeed'><b class='feed-key' title='k'/><i class='hentry'>" ++
      "<u class='entry-key' title='k'/><u class='entry-key'/><u class='entry-key' title='k'/>" ++
        "</i></p>")
    (fun d => d.journal.entries.map (·.entryKeys.map keyTitle) = [["k", "", "k"]] ∧
      d.feedChecks.map (·.feedKeys.map keyTitle) = [["k"]] ∧
      (d.findings.map (·.problem)).filter
        (fun problem => problem.isKey .entry || problem.isKey .feed) =
          [.blankKey .entry, .duplicateKey .entry "k"])
    (by decide +kernel)
  exact ⟨d, h, htitles, (keys_reported h).2.2⟩

end Markup.Document

end HAtom

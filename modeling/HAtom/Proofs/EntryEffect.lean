import HAtom.Proofs.CardEffect
import HAtom.Proofs.ValuesSeen
import HAtom.Rules.Entry

/-!
# The effect of the rules of an entry

What `Pass.checkEntry` claims and finds, as a function of the nodes in sight below the entry. The
properties are looked for in the order of `Property.all`, and what was found as one of them is out
of sight of those after it: `free` are the nodes left in sight by some properties, and `members`
the nodes found as one, with those inside them.

* `propertyEffect` is the effect of checking one property, `entryEffect` that of a whole entry.
* `Pass.gains_checkEntry` says that an entry has this effect, whatever the pass has done before.
-/

namespace HAtom

open Markup

/-! ## Nodes found twice and values seen twice -/

/-- A problem at each of the nodes with a keyword inside another one with it, those inside one
outermost node after those inside the one before. -/
def nestedFindings (keyword : String) (ts : List Tree) : List Finding :=
  (tops ts).flatMap fun t => (inside t ts).map fun s => ⟨.nested keyword, s.head.label⟩

/-- The title of a key, empty without one. -/
def keyTitle (t : Tree) : String := (t.head.attribute? "title").getD ""

/-- What is wrong with the titles of keys, when the titles `seen` were there before. -/
def keyFindings (kind : KeyKind) (seen : List String) : List Tree → List Finding
  | [] => []
  | key :: rest =>
    if Text.isBlankText (keyTitle key) then
      ⟨.blankKey kind, key.head.label⟩ :: keyFindings kind seen rest
    else if seen.contains (keyTitle key) then
      ⟨.duplicateKey kind (keyTitle key), key.head.label⟩ :: keyFindings kind seen rest
    else keyFindings kind (seen ++ [keyTitle key]) rest

/-! ## Properties -/

namespace Property

theorem mem_all (q : Property) : q ∈ all := by
  cases q with
  | date which => cases which <;> decide
  | _ => decide

theorem keyword_mem (q : Property) : q.keyword ∈ entryKeywords := List.mem_map_of_mem q.mem_all

/-- The properties that are looked for before this one, the last one first. -/
def before (q : Property) : List Property := (all.takeWhile (· != q)).reverse

theorem before_eq {q : Property} {done rest : List Property}
    (h : done.reverse ++ q :: rest = all) : q.before = done := by
  have hnd : (done.reverse ++ q :: rest).Nodup := by rw [h]; decide
  have hq : ∀ r ∈ done.reverse, (r != q) = true := fun r hr => by
    have := (List.nodup_append.1 hnd).2.2 r hr q List.mem_cons_self
    simpa using this
  rw [before, ← h, List.takeWhile_append_of_pos hq, List.takeWhile_cons_of_neg (by simp),
    List.append_nil, List.reverse_reverse]

/-- The key of an entry is looked for once only. -/
theorem ne_key_of_mem {q : Property} {done rest : List Property}
    (h : done.reverse ++ q :: rest = all) (hkey : key ∈ rest) : q ≠ key := by
  rintro rfl
  have hnd : (done.reverse ++ key :: rest).Nodup := by rw [h]; decide
  exact (List.nodup_cons.1 (List.nodup_append.1 hnd).2.1).1 hkey

end Property

/-- The nodes of a list that carry a property. -/
def having (q : Property) (ts : List Tree) : List Tree := marked q.carrier q.keyword ts

/-- The nodes in sight that properties leave there, the last one looked for first. -/
def free (view : List Tree) : List Property → List Tree
  | [] => view
  | q :: before => uncovered (free view before) (having q (free view before))

/-- The nodes in sight with a property that no property before it covers. -/
def members (view : List Tree) (q : Property) : List Tree := having q (free view q.before)

/-- What is wrong with the date of a node. -/
def dateFindings (which : DateProperty) (t : Tree) : List Finding :=
  if (dateOf t).isEmpty then [⟨.emptyDate which, t.head.label⟩]
  else if !IsoDate.isValid (dateOf t) then [⟨.badDate which (dateOf t), t.head.label⟩] else []

/-- What is wrong with the target of a link. -/
def linkFindings (keyword : String) (t : Tree) : List Finding :=
  if Text.isBlankText ((t.head.attribute? "href").getD "") then
    [⟨.blankLink keyword, t.head.label⟩]
  else []

/-- What is wrong with the number of nodes found as a property of an entry. -/
def countFindings (entry : Tree) (q : Property) (found : List Tree) : List Finding :=
  match q.cardinality, found with
  | .any, _ => []
  | .exactlyOne, [] => [⟨.missing q, entry.head.label⟩]
  | _, found => (found.drop 1).map fun t => ⟨.repeated q, t.head.label⟩

/-- The effect of checking what a property other than a key holds. -/
def occurrenceEffect (q : Property) (view : List Tree) (t : Tree) : Effect :=
  match q with
  | .date which => .found (dateFindings which t)
  | .author => authorEffect view t
  | .bookmark => .found (linkFindings q.keyword t)
  | .tag => .found (linkFindings q.keyword t)
  | _ => .found []

/-- The effect of checking what the nodes found as a property hold, when they are found among these
nodes in sight. -/
def contentsEffect (q : Property) (view found : List Tree) : Effect :=
  if q = .key then .found (keyFindings .entry [] found)
  else .all (found.map fun t => occurrenceEffect q (inside t view) t)

/-- The effect of checking a property with these nodes in sight. -/
def propertyEffect (view : List Tree) (entry : Tree) (q : Property) : Effect :=
  ((Effect.claiming (tops (having q view))).andThen
      (.found (nestedFindings q.keyword (having q view)))).andThen
    ((Effect.found (countFindings entry q (tops (having q view)))).andThen
      (contentsEffect q view (tops (having q view))))

/-- How many nodes are found as summary or content of an entry, among some properties. -/
def bodyCount (view : List Tree) : List Property → Nat
  | [] => 0
  | q :: rest =>
    if q == .summary || q == .content then (tops (members view q)).length + bodyCount view rest
    else bodyCount view rest

/-- The effect of checking an entry. -/
def entryEffect (view : List Tree) (entry : Tree) : Effect :=
  (Effect.all (Property.all.map fun q => propertyEffect (free view q.before) entry q)).andThen
    (.found (if bodyCount view Property.all == 0 then [⟨.noContent, entry.head.label⟩] else []))

/-! ## What an entry finds -/

theorem findings_contentsEffect {q : Property} (hq : q ≠ .key) (view found : List Tree) :
    (contentsEffect q view found).findings =
      found.flatMap fun t => (occurrenceEffect q (inside t view) t).findings := by
  rw [contentsEffect, if_neg hq, Effect.findings_all, List.flatMap_map]

theorem findings_propertyEffect (view : List Tree) (entry : Tree) (q : Property) :
    (propertyEffect view entry q).findings =
      nestedFindings q.keyword (having q view) ++
        (countFindings entry q (tops (having q view)) ++
          (contentsEffect q view (tops (having q view))).findings) := rfl

theorem findings_entryEffect (view : List Tree) (entry : Tree) :
    (entryEffect view entry).findings =
      (Property.all.flatMap fun q => (propertyEffect (free view q.before) entry q).findings) ++
        if bodyCount view Property.all == 0 then [⟨.noContent, entry.head.label⟩] else [] := by
  rw [entryEffect, Effect.findings_andThen, Effect.findings_all, List.flatMap_map,
    Effect.findings_found]

/-! ## What an entry claims lies in sight -/

theorem mem_having {q : Property} {ts : List Tree} {t : Tree} :
    t ∈ having q ts ↔ t ∈ ts ∧ t.head.carries q.carrier q.keyword := mem_marked

theorem free_sublist (view : List Tree) (before : List Property) :
    (free view before).Sublist view := by
  induction before with
  | nil => exact List.Sublist.refl _
  | cons q before ih => exact (uncovered_sublist ..).trans ih

theorem claims_occurrenceEffect {q : Property} {view : List Tree} {t : Tree} {l : Nat}
    (hl : l ∈ (occurrenceEffect q view t).claims) : ∃ s ∈ view, s.head.label = l := by
  cases q with
  | author => exact claims_authorEffect hl
  | _ => simp [occurrenceEffect] at hl

theorem claims_contentsEffect {q : Property} {view found : List Tree} {l : Nat}
    (hl : l ∈ (contentsEffect q view found).claims) :
    ∃ t ∈ found, ∃ s ∈ inside t view, s.head.label = l := by
  unfold contentsEffect at hl
  split at hl
  · simp at hl
  · simp only [Effect.mem_claims_all, List.mem_map, exists_exists_and_eq_and] at hl
    obtain ⟨t, ht, hl⟩ := hl
    exact ⟨t, ht, claims_occurrenceEffect hl⟩

theorem claims_propertyEffect {view : List Tree} {entry : Tree} {q : Property} {l : Nat}
    (hl : l ∈ (propertyEffect view entry q).claims) : ∃ s ∈ view, s.head.label = l := by
  simp only [propertyEffect, Effect.claims_andThen, Effect.claims_claiming, Effect.claims_found,
    List.nil_append, List.append_nil, List.mem_append, List.mem_map] at hl
  rcases hl with hl | ⟨t, ht, rfl⟩
  · obtain ⟨t, -, s, hs, rfl⟩ := claims_contentsEffect hl
    exact ⟨s, (mem_inside.1 hs).1, rfl⟩
  · exact ⟨t, (mem_having.1 (mem_tops.1 ht).1).1, rfl⟩

theorem claims_entryEffect {view : List Tree} {entry : Tree} {l : Nat}
    (hl : l ∈ (entryEffect view entry).claims) : ∃ s ∈ view, s.head.label = l := by
  simp only [entryEffect, Effect.claims_andThen, Effect.claims_found, List.nil_append,
    Effect.mem_claims_all, List.mem_map, exists_exists_and_eq_and] at hl
  obtain ⟨q, -, hl⟩ := hl
  obtain ⟨s, hs, rfl⟩ := claims_propertyEffect hl
  exact ⟨s, (free_sublist _ _).subset hs, rfl⟩

namespace Pass

/-! ## Keys -/

/-- A value that is not blank is not empty, so it is recorded. -/
theorem remember_title (p : Pass) {key : Tree} (h : ¬Text.isBlankText (keyTitle key)) :
    (p.remember "title" key.head).2 = { p with seen := p.seen.push "title" (keyTitle key) } := by
  unfold keyTitle at h ⊢
  unfold remember
  cases htitle : key.head.attribute? "title" with
  | none => simp [htitle, Text.isBlankText] at h
  | some value =>
    have hne : value.isEmpty = false := by
      refine Bool.eq_false_iff.2 fun he => h ?_
      rw [htitle, String.isEmpty_iff.1 he]
      rfl
    simp [hne]

theorem checkKey_eq (p : Pass) (kind : KeyKind) (key : Tree) :
    p.checkKey kind key.head =
      if Text.isBlankText (keyTitle key) then p.add [⟨.blankKey kind, key.head.label⟩]
      else if (p.seen.values "title").contains (keyTitle key) then
        p.add [⟨.duplicateKey kind (keyTitle key), key.head.label⟩]
      else { p with seen := p.seen.push "title" (keyTitle key) } := by
  change (if Text.isBlankText (keyTitle key) then p.add [⟨.blankKey kind, key.head.label⟩]
      else if (p.seen.values "title").contains (keyTitle key) then
        p.add [⟨.duplicateKey kind (keyTitle key), key.head.label⟩]
      else (p.remember "title" key.head).2) = _
  split
  · rfl
  · next hblank => rw [p.remember_title hblank]

/-- **Keys are checked against those before them.** -/
theorem gains_checkKeys (kind : KeyKind) (keys : List Tree) (p : Pass) :
    p.Gains (.found (keyFindings kind (p.seen.values "title") keys))
      (keys.foldl (fun p key => p.checkKey kind key.head) p) := by
  induction keys generalizing p with
  | nil => exact p.gains_refl
  | cons key rest ih =>
    rw [List.foldl_cons, checkKey_eq, keyFindings]
    split
    · exact (p.gains_add [_]).trans (ih _)
    · split
      · exact (p.gains_add [_]).trans (ih _)
      · have h := ih { p with seen := p.seen.push "title" (keyTitle key) }
        rw [ValueCache.values_push, if_pos rfl] at h
        exact ⟨h.claimed, h.findings⟩

/-! ## Properties -/

theorem checkCount_eq (p : Pass) (entry : Tree) (q : Property) (found : List Tree) :
    p.checkCount entry q found = p.add (countFindings entry q found) := by
  unfold checkCount countFindings
  cases q.cardinality with
  | any => exact (add_nil p).symm
  | exactlyOne => cases found <;> rfl
  | atMostOne => cases found <;> rfl

theorem checkNested_eq (p : Pass) (t : Tree) (name keyword : String) :
    p.checkNested t name keyword =
      p.add ((marked name keyword (p.view t)).map fun s => ⟨.nested keyword, s.head.label⟩) := rfl

theorem checkAllNested_eq (p : Pass) (ts : List Tree) (name keyword : String) :
    p.checkAllNested ts name keyword = p.add (ts.flatMap fun t =>
      (marked name keyword (p.view t)).map fun s => ⟨.nested keyword, s.head.label⟩) := by
  unfold checkAllNested
  induction ts generalizing p with
  | nil => exact (add_nil p).symm
  | cons t rest ih =>
    rw [List.foldl_cons, checkNested_eq, ih, add_add, List.flatMap_cons]
    rfl

theorem collect_fst (p : Pass) {scope : Tree} (hd : scope.below.Distinct) (name keyword : String) :
    (p.collect scope name keyword).1 = tops (marked name keyword (p.view scope)) :=
  p.search_fst hd name keyword

theorem inside_marked (t : Tree) (name keyword : String) (ts : List Tree) :
    inside t (marked name keyword ts) = marked name keyword (inside t ts) := by
  simp only [inside, marked, List.filter_filter, Bool.and_comm]

/-- A search that also reports the nodes nested inside those found. -/
theorem collect_snd (p : Pass) {scope : Tree} (hd : scope.below.Distinct) (name keyword : String) :
    (p.collect scope name keyword).2 = (p.search scope name keyword).2.add
      (nestedFindings keyword (marked name keyword (p.view scope))) := by
  change (p.search scope name keyword).2.checkAllNested (p.search scope name keyword).1 name
    keyword = _
  rw [checkAllNested_eq, p.search_fst hd]
  congr 1
  refine List.flatMap_congr fun t ht => ?_
  rw [p.view_found hd ht, inside_marked]

theorem gains_collect (p : Pass) {scope : Tree} (hd : scope.below.Distinct)
    (name keyword : String) :
    p.Gains ((Effect.claiming (tops (marked name keyword (p.view scope)))).andThen
      (.found (nestedFindings keyword (marked name keyword (p.view scope)))))
      (p.collect scope name keyword).2 := by
  rw [p.collect_snd hd]
  exact (p.gains_search hd ..).trans (gains_add ..)

theorem checkDate_eq (p : Pass) (which : DateProperty) (t : Tree) :
    p.checkDate which t = p.add (dateFindings which t) := by
  unfold checkDate dateFindings
  dsimp only
  split
  · rfl
  · exact noteIf_eq_add ..

theorem checkLink_eq (p : Pass) (keyword : String) (t : Tree) :
    p.checkLink keyword t = p.add (linkFindings keyword t) :=
  noteIf_eq_add ..

theorem gains_checkOccurrence (p : Pass) {q : Property} (hq : q ≠ .key) {t : Tree}
    (hd : t.below.Distinct) :
    p.Gains (occurrenceEffect q (p.view t) t) (checkOccurrence q p t) := by
  cases q with
  | date which =>
    change p.Gains (.found (dateFindings which t)) (p.checkDate which t)
    rw [checkDate_eq]
    exact gains_add ..
  | author => exact p.gains_checkAuthor hd
  | bookmark | tag =>
    change p.Gains (.found (linkFindings _ t)) (p.checkLink _ t)
    rw [checkLink_eq]
    exact gains_add ..
  | key => exact absurd rfl hq
  | title | summary | content => exact p.gains_refl

@[simp] theorem seen_checkOccurrence (p : Pass) {q : Property} (hq : q ≠ .key) (t : Tree) :
    (checkOccurrence q p t).seen = p.seen := by
  cases q with
  | date which =>
    change (p.checkDate which t).seen = p.seen
    rw [checkDate_eq, seen_add]
  | author => exact p.seen_checkAuthor t
  | bookmark | tag =>
    change (p.checkLink _ t).seen = p.seen
    rw [checkLink_eq, seen_add]
  | key => exact absurd rfl hq
  | title | summary | content => rfl

variable {entry : Tree} (hd : entry.below.Distinct)

include hd

theorem checkProperty_fst (p : Pass) (q : Property) :
    (p.checkProperty entry q).1 = (tops (having q (p.view entry))).length :=
  congrArg List.length (p.collect_fst hd q.carrier q.keyword)

theorem checkProperty_snd (p : Pass) (q : Property) :
    (p.checkProperty entry q).2 = (tops (having q (p.view entry))).foldl (checkOccurrence q)
      ((p.collect entry q.carrier q.keyword).2.add
        (countFindings entry q (tops (having q (p.view entry))))) := by
  have h : (p.checkProperty entry q).2 =
      (p.collect entry q.carrier q.keyword).1.foldl (checkOccurrence q)
        ((p.collect entry q.carrier q.keyword).2.checkCount entry q
          (p.collect entry q.carrier q.keyword).1) := rfl
  rw [h, p.collect_fst hd, checkCount_eq]
  rfl

theorem view_collect_found (p : Pass) {name keyword : String} {t : Tree}
    (ht : t ∈ tops (marked name keyword (p.view entry))) :
    (p.collect entry name keyword).2.view t = inside t (p.view entry) := by
  rw [p.collect_snd hd, view_add, p.view_found hd ht]

theorem gains_contents (p : Pass) {q : Property} {fs : List Finding}
    (hkey : q = .key → p.seen.values "title" = []) :
    ((p.collect entry q.carrier q.keyword).2.add fs).Gains
      (contentsEffect q (p.view entry) (tops (having q (p.view entry))))
      ((tops (having q (p.view entry))).foldl (checkOccurrence q)
        ((p.collect entry q.carrier q.keyword).2.add fs)) := by
  unfold contentsEffect
  split
  · next hq =>
    subst hq
    have h := gains_checkKeys .entry (tops (having .key (p.view entry)))
      ((p.collect entry Property.key.carrier Property.key.keyword).2.add fs)
    rwa [seen_add, p.collect_snd hd, seen_add, seen_search, hkey rfl, ← p.collect_snd hd] at h
  · next hq =>
    exact gains_foldl (checkOccurrence q) (occurrenceEffect q) hd (p.marked_view_sublist ..)
      (fun r _ ht => r.gains_checkOccurrence hq ht) claims_occurrenceEffect _
      fun _ ht => by rw [view_add, view_collect_found hd p ht]

/-- **The effect of checking a property.** -/
theorem gains_checkProperty (p : Pass) {q : Property}
    (hkey : q = .key → p.seen.values "title" = []) :
    p.Gains (propertyEffect (p.view entry) entry q) (p.checkProperty entry q).2 := by
  rw [checkProperty_snd hd]
  exact (p.gains_collect hd ..).trans ((gains_add ..).trans (gains_contents hd p hkey))

theorem seen_checkProperty (p : Pass) {q : Property} (hq : q ≠ .key) :
    (p.checkProperty entry q).2.seen = p.seen := by
  rw [checkProperty_snd hd, seen_foldl fun p t => seen_checkOccurrence p hq t, seen_add,
    p.collect_snd hd, seen_add, seen_search]

/-- Nodes found as a property are out of sight of the properties after it. -/
theorem view_checkProperty (p : Pass) {q : Property}
    (hkey : q = .key → p.seen.values "title" = []) :
    (p.checkProperty entry q).2.view entry =
      uncovered (p.view entry) (having q (p.view entry)) := by
  rw [checkProperty_snd hd]
  have hcovered : ∀ l ∈ (contentsEffect q (p.view entry) (tops (having q (p.view entry)))).claims,
      ∃ t ∈ entry.below.trees, ((p.collect entry q.carrier q.keyword).2.add (countFindings entry q
        (tops (having q (p.view entry))))).isClaimed t.head.label ∧ l ∈ t.below.labels := by
    intro l hl
    obtain ⟨t, ht, s, hs, rfl⟩ := claims_contentsEffect hl
    refine ⟨t, mem_below_of_mem_view (mem_view_of_mem_tops ht), ?_,
      Forest.label_mem_labels (mem_inside.1 hs).2⟩
    rw [isClaimed_add, (p.gains_collect hd ..).isClaimed]
    exact .inl (List.mem_map.2 ⟨t, ht, rfl⟩)
  rw [(gains_contents hd p hkey).view_eq_of_covered hd hcovered, view_add, p.collect_snd hd,
    view_add, p.view_search hd]
  rfl

/-- Checking properties one after another, when those before them have been checked. -/
theorem gains_checkProperties (view : List Tree) (rest : List Property) :
    ∀ (done : List Property) (count : Nat) (p : Pass), done.reverse ++ rest = Property.all →
      p.view entry = free view done → (.key ∈ rest → p.seen.values "title" = []) →
      p.Gains (.all (rest.map fun q => propertyEffect (free view q.before) entry q))
          (checkProperties entry rest count p).2 ∧
        (checkProperties entry rest count p).1 = count + bodyCount view rest := by
  induction rest with
  | nil => exact fun done count p _ _ _ => ⟨p.gains_refl, rfl⟩
  | cons q rest ih =>
    intro done count p hall hview hseen
    have hbefore : q.before = done := Property.before_eq hall
    have hkey : q = .key → p.seen.values "title" = [] := fun h => hseen (h ▸ List.mem_cons_self)
    have hseen' : .key ∈ rest → (p.checkProperty entry q).2.seen.values "title" = [] := by
      intro hrest
      rw [seen_checkProperty hd p (Property.ne_key_of_mem hall hrest)]
      exact hseen (List.mem_cons_of_mem q hrest)
    obtain ⟨hgains, hcount⟩ := ih (q :: done)
      (if q == .summary || q == .content then count + (p.checkProperty entry q).1 else count)
      (p.checkProperty entry q).2 (by simpa using hall)
      (by rw [view_checkProperty hd p hkey, hview]; rfl) hseen'
    refine ⟨?_, ?_⟩
    · have h := gains_checkProperty hd p hkey
      rw [hview, ← hbefore] at h
      exact h.trans hgains
    · rw [checkProperties, hcount, checkProperty_fst hd, hview, ← hbefore, bodyCount, ← members]
      split
      · omega
      · rfl

/-- **The effect of checking an entry**, whatever the pass has done before. -/
theorem gains_checkEntry (p : Pass) :
    p.Gains (entryEffect (p.view entry) entry) (p.checkEntry entry) := by
  obtain ⟨hgains, hcount⟩ := gains_checkProperties hd (p.view entry) Property.all [] 0
    (p.forget "title") rfl rfl fun _ => by simp [forget, ValueCache.values_reset]
  have hentry : p.checkEntry entry =
      (checkProperties entry Property.all 0 (p.forget "title")).2.noteIf
        ((checkProperties entry Property.all 0 (p.forget "title")).1 == 0) .noContent
        entry.head := rfl
  rw [hentry]
  generalize checkProperties entry Property.all 0 (p.forget "title") = checked at hgains hcount
  have hbody : checked.1 = bodyCount (p.view entry) Property.all := by
    rw [hcount, Nat.zero_add]
  rw [hbody, noteIf_eq_add]
  exact ((p.gains_forget "title").of_refl hgains).trans (gains_add ..)

end Pass

end HAtom

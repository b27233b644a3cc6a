import HAtom.Proofs.PageEffect

/-!
# What the rules of an entry report

Which problems the rules of an entry may report, and where. `FoundIn view t f` says that the finding
`f` may be one of a rule that looks at the node `t` and has the nodes `view` in sight below it: the
problem is one of those of an entry, and it is at `t` or at one of the nodes in sight.

* `foundIn_cardEffect`, `foundIn_authorEffect` and `foundIn_propertyEffect` go through the rules from
  the cards of authors up to the properties.
* `foundIn_entryEffect`: a whole entry makes no other findings.
* `filter_feedEffect`: of entries inside each other and of keywords out of place only the feed itself
  reports any.
-/

namespace HAtom

open Markup

/-- Whether the rules of an entry look for the problem. Those of feeds and those of keywords out of
place are looked for elsewhere. -/
def Problem.inEntry : Problem → Bool
  | nested keyword => entryKeywords.contains keyword
  | emptyFeed => false
  | blankKey kind => kind == .entry
  | duplicateKey kind _ => kind == .entry
  | misplaced _ _ _ => false
  | remark _ => false
  | _ => true

/-- A problem that the rules of an entry look for, at a node or at one of the nodes in sight below
it. -/
structure FoundIn (view : List Tree) (t : Tree) (f : Finding) : Prop where
  problem : f.problem.inEntry
  place : f.label = t.head.label ∨ ∃ s ∈ view, s.head.label = f.label

namespace FoundIn

variable {view : List Tree} {s t : Tree} {problem : Problem} {f : Finding}

theorem here (h : problem.inEntry) : FoundIn view t ⟨problem, t.head.label⟩ := ⟨h, .inl rfl⟩

theorem of_mem (h : problem.inEntry) (hs : s ∈ view) : FoundIn view t ⟨problem, s.head.label⟩ :=
  ⟨h, .inr ⟨s, hs, rfl⟩⟩

theorem mono {view' : List Tree} (h : FoundIn view t f) (hsub : ∀ s ∈ view, s ∈ view') :
    FoundIn view' t f :=
  ⟨h.problem, h.place.imp_right fun ⟨s, hs, hsf⟩ => ⟨s, hsub s hs, hsf⟩⟩

/-- What a rule finds that looks at a node in sight is in sight. -/
theorem outward (h : FoundIn (inside s view) s f) (hs : s ∈ view) : FoundIn view t f := by
  refine ⟨h.problem, .inr ?_⟩
  rcases h.place with hf | ⟨u, hu, huf⟩
  · exact ⟨s, hs, hf.symm⟩
  · exact ⟨u, (mem_inside.1 hu).1, huf⟩

/-- The same problem at some of the nodes in sight. -/
theorem of_mem_map {ts : List Tree} (h : problem.inEntry) (hts : ∀ s ∈ ts, s ∈ view)
    (hf : f ∈ ts.map fun s => ⟨problem, s.head.label⟩) : FoundIn view t f := by
  obtain ⟨s, hs, rfl⟩ := List.mem_map.1 hf
  exact of_mem h (hts s hs)

end FoundIn

/-! ## Nested nodes and keys -/

variable {view : List Tree} {t : Tree} {f : Finding}

theorem mem_nestedFindings {keyword : String} {ts : List Tree}
    (hf : f ∈ nestedFindings keyword ts) :
    f.problem = .nested keyword ∧ ∃ s ∈ ts, s.head.label = f.label := by
  obtain ⟨u, -, hf⟩ := List.mem_flatMap.1 hf
  obtain ⟨s, hs, rfl⟩ := List.mem_map.1 hf
  exact ⟨rfl, s, (mem_inside.1 hs).1, rfl⟩

theorem mem_keyFindings {kind : KeyKind} {seen : List String} {keys : List Tree}
    (hf : f ∈ keyFindings kind seen keys) :
    (f.problem = .blankKey kind ∨ ∃ value, f.problem = .duplicateKey kind value) ∧
      ∃ key ∈ keys, key.head.label = f.label := by
  induction keys generalizing seen with
  | nil => simp [keyFindings] at hf
  | cons key rest ih =>
    have hrest : ∀ seen, f ∈ keyFindings kind seen rest →
        (f.problem = .blankKey kind ∨ ∃ value, f.problem = .duplicateKey kind value) ∧
          ∃ k ∈ key :: rest, k.head.label = f.label := by
      intro seen h
      obtain ⟨hproblem, k, hk, hkf⟩ := ih h
      exact ⟨hproblem, k, List.mem_cons_of_mem key hk, hkf⟩
    rw [keyFindings] at hf
    split at hf
    · rcases List.mem_cons.1 hf with rfl | hf
      · exact ⟨.inl rfl, key, List.mem_cons_self, rfl⟩
      · exact hrest _ hf
    · split at hf
      · rcases List.mem_cons.1 hf with rfl | hf
        · exact ⟨.inr ⟨_, rfl⟩, key, List.mem_cons_self, rfl⟩
        · exact hrest _ hf
      · exact hrest _ hf

/-! ## Cards and authors -/

theorem foundIn_nameFindings (hf : f ∈ nameFindings view t) : FoundIn view t f := by
  have hinside : ∀ s ∈ tops (marked "class" "fn" view), s ∈ view := fun s hs =>
    (mem_marked.1 (mem_tops.1 hs).1).1
  unfold nameFindings at hf
  split at hf
  · obtain rfl := List.mem_singleton.1 hf
    exact .here rfl
  · obtain ⟨s, hs, rfl⟩ := List.mem_map.1 hf
    have hs := List.mem_of_mem_drop hs
    unfold cardNames at hs
    split at hs
    · rcases List.mem_cons.1 hs with rfl | hs
      · exact .here rfl
      · exact .of_mem rfl (hinside s hs)
    · exact .of_mem rfl (hinside s hs)

theorem foundIn_cardEffect (hf : f ∈ (cardEffect view t).findings) : FoundIn view t f := by
  rw [findings_cardEffect] at hf
  rcases List.mem_append.1 hf with hf | hf
  · exact foundIn_nameFindings hf
  · have hproblem : Problem.notMail.inEntry := rfl
    refine .of_mem_map hproblem (fun s hs => ?_) hf
    exact mem_of_mem_cardAddresses (List.mem_filter.1 hs).1

theorem foundIn_authorEffect (hf : f ∈ (authorEffect view t).findings) : FoundIn view t f := by
  rw [findings_authorEffect] at hf
  split at hf
  · exact foundIn_cardEffect hf
  · split at hf
    · obtain rfl := List.mem_singleton.1 hf
      exact .here rfl
    · obtain ⟨card, hcard, hf⟩ := List.mem_flatMap.1 hf
      exact (foundIn_cardEffect hf).outward (mem_of_mem_authorCards hcard)

/-! ## Properties -/

theorem foundIn_occurrenceEffect {q : Property} (hf : f ∈ (occurrenceEffect q view t).findings) :
    FoundIn view t f := by
  cases q with
  | date which =>
    simp only [occurrenceEffect, dateFindings, Effect.findings_found] at hf
    split at hf
    · obtain rfl := List.mem_singleton.1 hf
      exact .here rfl
    · split at hf
      · obtain rfl := List.mem_singleton.1 hf
        exact .here rfl
      · exact absurd hf List.not_mem_nil
  | author => exact foundIn_authorEffect hf
  | bookmark | tag =>
    simp only [occurrenceEffect, linkFindings, Effect.findings_found] at hf
    split at hf
    · obtain rfl := List.mem_singleton.1 hf
      exact .here rfl
    · exact absurd hf List.not_mem_nil
  | title | summary | content | key => exact absurd hf List.not_mem_nil

theorem foundIn_countFindings {q : Property} {found : List Tree} (hfound : ∀ s ∈ found, s ∈ view)
    (hf : f ∈ countFindings t q found) : FoundIn view t f := by
  unfold countFindings at hf
  split at hf
  · exact absurd hf List.not_mem_nil
  · obtain rfl := List.mem_singleton.1 hf
    exact .here rfl
  · have hproblem : (Problem.repeated q).inEntry := rfl
    exact .of_mem_map hproblem (fun s hs => hfound s (List.mem_of_mem_drop hs)) hf

theorem foundIn_contentsEffect {q : Property} {found : List Tree} (hfound : ∀ s ∈ found, s ∈ view)
    (hf : f ∈ (contentsEffect q view found).findings) : FoundIn view t f := by
  by_cases hq : q = .key
  · rw [contentsEffect, if_pos hq] at hf
    obtain ⟨hproblem, key, hkey, hkf⟩ := mem_keyFindings hf
    refine ⟨?_, .inr ⟨key, hfound key hkey, hkf⟩⟩
    rcases hproblem with h | ⟨value, h⟩
    · rw [h]
      rfl
    · rw [h]
      rfl
  · rw [findings_contentsEffect hq] at hf
    obtain ⟨s, hs, hf⟩ := List.mem_flatMap.1 hf
    exact (foundIn_occurrenceEffect hf).outward (hfound s hs)

theorem foundIn_propertyEffect {q : Property} (hf : f ∈ (propertyEffect view t q).findings) :
    FoundIn view t f := by
  have hfound : ∀ s ∈ tops (having q view), s ∈ view := fun s hs =>
    (mem_having.1 (mem_tops.1 hs).1).1
  rw [findings_propertyEffect, List.mem_append, List.mem_append] at hf
  rcases hf with hf | hf | hf
  · obtain ⟨hproblem, s, hs, hsf⟩ := mem_nestedFindings hf
    refine ⟨?_, .inr ⟨s, (mem_having.1 hs).1, hsf⟩⟩
    rw [hproblem]
    exact List.contains_iff_mem.2 q.keyword_mem
  · exact foundIn_countFindings hfound hf
  · exact foundIn_contentsEffect hfound hf

/-- **The findings of an entry** are problems of entries, at the entry or below it. -/
theorem foundIn_entryEffect (hf : f ∈ (entryEffect view t).findings) : FoundIn view t f := by
  rw [findings_entryEffect] at hf
  rcases List.mem_append.1 hf with hf | hf
  · obtain ⟨q, -, hf⟩ := List.mem_flatMap.1 hf
    exact (foundIn_propertyEffect hf).mono fun s hs => (free_sublist _ _).subset hs
  · split at hf
    · obtain rfl := List.mem_singleton.1 hf
      exact .here rfl
    · exact absurd hf List.not_mem_nil

/-! ## Feeds -/

/-- Whether the keys of a feed, its entries or the lack of entries give rise to the problem. -/
def Problem.inFeed (problem : Problem) : Bool :=
  problem.inEntry ||
    match problem with
    | nested keyword => keyword == feedKeyKeyword
    | emptyFeed => true
    | blankKey _ => true
    | duplicateKey _ _ => true
    | _ => false

theorem inFeed_of_mem_keysEffect (hf : f ∈ (keysEffect view).findings) : f.problem.inFeed := by
  rw [findings_keysEffect] at hf
  rcases List.mem_append.1 hf with hf | hf
  · rw [(mem_nestedFindings hf).1]
    rfl
  · rcases (mem_keyFindings hf).1 with h | ⟨value, h⟩
    · rw [h]
      rfl
    · rw [h]
      rfl

theorem inFeed_of_mem_entriesEffect (hf : f ∈ (entriesEffect view).findings) :
    f.problem.inFeed := by
  rw [findings_entriesEffect] at hf
  obtain ⟨entry, -, hf⟩ := List.mem_flatMap.1 hf
  exact Bool.or_eq_true_iff.2 (.inl (foundIn_entryEffect hf).problem)

/-- **Of the findings of a feed**, those of other problems are that entries lie inside each other,
and in a feed that is marked as one that keywords are out of place. -/
theorem filter_feedEffect {P : Problem → Bool}
    (hP : ∀ problem : Problem, problem.inFeed → P problem = false) (explicit : Bool)
    (view : List Tree) (feed : Tree) :
    (feedEffect explicit view feed).findings.filter (P ·.problem) =
      (nestedFindings entryKeyword (marked "class" entryKeyword view)).filter (P ·.problem) ++
        if explicit then (strayFindings entryKeywords (leftover view)).filter (P ·.problem)
        else [] := by
  have hnone : ∀ fs : List Finding, (∀ f ∈ fs, f.problem.inFeed) → fs.filter (P ·.problem) = [] :=
    fun fs h => List.filter_eq_nil_iff.2 fun f hf => by
      rw [hP _ (h f hf)]
      exact Bool.false_ne_true
  have hempty : ∀ f ∈ (if explicit && (feedEntries view).isEmpty then
      [⟨.emptyFeed, feed.head.label⟩] else [] : List Finding), f.problem.inFeed := by
    intro f hf
    split at hf
    · obtain rfl := List.mem_singleton.1 hf
      rfl
    · exact absurd hf List.not_mem_nil
  rw [findings_feedEffect]
  simp only [List.filter_append, hnone _ hempty, hnone _ fun f => inFeed_of_mem_keysEffect,
    hnone _ fun f => inFeed_of_mem_entriesEffect, List.append_nil, List.nil_append]
  cases explicit <;> rfl

end HAtom

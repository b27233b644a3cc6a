import HAtom.Pass
import HAtom.Proofs.Sight

/-!
# Effects of rules

A rule that looks at a node claims nodes below it and makes findings. Which ones depends on the
nodes it has in sight there, `Pass.view`, and on nothing else that the pass has done; an `Effect`
is what it adds, and `Pass.Gains` says that it adds just that.

* `Pass.search_fst` and `Pass.view_search`: a search finds the outermost nodes in sight with a
  keyword, and takes them and what is below them out of sight.
* `Pass.view_found`: what is below a node that was found stays in sight of the rules that look at
  it.
* `Pass.gains_foldl`: rules that look at nodes apart from each other do not notice each other.
-/

namespace HAtom

open Markup

/-! ## Effects -/

/-- What a rule adds to a pass. -/
structure Effect where
  /-- The labels of the nodes that it claims. -/
  claims : List Nat
  findings : List Finding

namespace Effect

/-- The effect of findings alone. -/
def found (findings : List Finding) : Effect := ⟨[], findings⟩

/-- The effect of claiming nodes. -/
def claiming (ts : List Tree) : Effect := ⟨ts.map (·.head.label), []⟩

/-- One effect after another. -/
def andThen (a b : Effect) : Effect := ⟨b.claims ++ a.claims, a.findings ++ b.findings⟩

/-- Effects one after another. -/
def all : List Effect → Effect
  | [] => found []
  | e :: rest => e.andThen (all rest)

@[simp] theorem claims_found (fs : List Finding) : (found fs).claims = [] := rfl

@[simp] theorem findings_found (fs : List Finding) : (found fs).findings = fs := rfl

@[simp] theorem claims_claiming (ts : List Tree) :
    (claiming ts).claims = ts.map (·.head.label) := rfl

@[simp] theorem findings_claiming (ts : List Tree) : (claiming ts).findings = [] := rfl

@[simp] theorem claims_andThen (a b : Effect) : (a.andThen b).claims = b.claims ++ a.claims := rfl

@[simp] theorem findings_andThen (a b : Effect) :
    (a.andThen b).findings = a.findings ++ b.findings := rfl

@[simp] theorem found_nil_andThen (a : Effect) : (found []).andThen a = a := by
  simp [andThen, found]

@[simp] theorem findings_all (es : List Effect) : (all es).findings = es.flatMap findings := by
  induction es with
  | nil => rfl
  | cons e rest ih => simp [all, ih]

@[simp] theorem mem_claims_all {es : List Effect} {l : Nat} :
    l ∈ (all es).claims ↔ ∃ e ∈ es, l ∈ e.claims := by
  induction es with
  | nil => simp [all]
  | cons e rest ih => simp [all, ih, or_comm]

end Effect

namespace Pass

/-- The pass `q` is what the pass `p` becomes by an effect. -/
structure Gains (p : Pass) (e : Effect) (q : Pass) : Prop where
  claimed : q.claimed = e.claims ++ p.claimed
  findings : q.findings = p.findings ++ e.findings

variable {p q r : Pass} {a b : Effect}

theorem Gains.trans (h : p.Gains a q) (h' : q.Gains b r) : p.Gains (a.andThen b) r :=
  ⟨by rw [h'.claimed, h.claimed, Effect.claims_andThen, List.append_assoc],
    by rw [h'.findings, h.findings, Effect.findings_andThen, List.append_assoc]⟩

/-- Findings alone, one after another. -/
theorem Gains.append {fs gs : List Finding} (h : p.Gains (.found fs) q)
    (h' : q.Gains (.found gs) r) : p.Gains (.found (fs ++ gs)) r :=
  h.trans h'

/-- What was done before without a finding. -/
theorem Gains.of_refl (h : p.Gains (.found []) q) (h' : q.Gains a r) : p.Gains a r := by
  have := h.trans h'
  rwa [Effect.found_nil_andThen] at this

theorem Gains.isClaimed (h : p.Gains a q) (l : Nat) :
    q.isClaimed l ↔ l ∈ a.claims ∨ p.isClaimed l := by
  simp [Pass.isClaimed, h.claimed]

theorem gains_add (p : Pass) (fs : List Finding) : p.Gains (.found fs) (p.add fs) := ⟨rfl, rfl⟩

theorem gains_refl (p : Pass) : p.Gains (.found []) p := ⟨rfl, (List.append_nil _).symm⟩

theorem gains_claim (p : Pass) (ts : List Tree) :
    p.Gains (.claiming ts) (p.claim (ts.map (·.head.label))) := ⟨rfl, (List.append_nil _).symm⟩

theorem gains_forget (p : Pass) (name : String) : p.Gains (.found []) (p.forget name) :=
  ⟨rfl, (List.append_nil _).symm⟩

/-! ## Findings alone -/

@[simp] theorem add_add (p : Pass) (fs gs : List Finding) :
    (p.add fs).add gs = p.add (fs ++ gs) := by
  simp [add, List.append_assoc]

@[simp] theorem add_nil (p : Pass) : p.add [] = p := by simp [add]

@[simp] theorem isClaimed_add (p : Pass) (fs : List Finding) :
    (p.add fs).isClaimed = p.isClaimed := rfl

@[simp] theorem seen_add (p : Pass) (fs : List Finding) : (p.add fs).seen = p.seen := rfl

theorem noteIf_eq_add (p : Pass) (c : Bool) (problem : Problem) (n : Node) :
    p.noteIf c problem n = p.add (if c then [⟨problem, n.label⟩] else []) := by
  cases c
  · exact (add_nil p).symm
  · rfl

/-! ## Nodes in sight -/

/-- The nodes below a node that a search from it has in sight. -/
def view (p : Pass) (t : Tree) : List Tree := t.below.visible p.isClaimed

@[simp] theorem view_add (p : Pass) (fs : List Finding) (t : Tree) :
    (p.add fs).view t = p.view t := rfl

theorem view_sublist (p : Pass) (t : Tree) : (p.view t).Sublist t.below.trees :=
  Forest.visible_sublist ..

theorem mem_below_of_mem_view {t s : Tree} (h : s ∈ p.view t) : s ∈ t.below.trees :=
  (p.view_sublist t).subset h

/-- When nothing below a node was claimed, everything below it is in sight. -/
theorem view_of_clear {t : Tree} (h : ∀ l ∈ t.below.labels, l ∉ p.claimed) :
    p.view t = t.below.trees :=
  Forest.visible_of_clear fun l hl => by simpa [isClaimed] using h l hl

/-- Claims elsewhere do not change what is in sight. -/
theorem Gains.view_eq {t : Tree} (hd : t.below.Distinct) (h : p.Gains a q)
    (ha : ∀ l ∈ a.claims, l ∉ t.below.labels) : q.view t = p.view t :=
  hd.visible_congr fun l hl => Bool.eq_iff_iff.2 <| by
    rw [h.isClaimed]
    exact or_iff_right fun hla => ha l hla hl

/-- Claims below nodes that are claimed already do not change what is in sight. -/
theorem Gains.view_eq_of_covered {t : Tree} (hd : t.below.Distinct) (h : p.Gains a q)
    (ha : ∀ l ∈ a.claims, ∃ s ∈ t.below.trees, p.isClaimed s.head.label ∧ l ∈ s.below.labels) :
    q.view t = p.view t := by
  refine hd.visible_eq_of_covered (fun s _ hs => (h.isClaimed _).2 (.inr hs)) fun s hs hq => ?_
  rcases (h.isClaimed _).1 hq with hl | hp
  · obtain ⟨u, hu, hpu, hlu⟩ := ha _ hl
    obtain ⟨v, hv, hvs⟩ := List.mem_map.1 hlu
    obtain rfl := hd.eq_of_label_eq (Forest.mem_trees_trans hu hv) hs hvs
    exact ⟨u, hu, by simp [hv], hpu⟩
  · exact ⟨s, hs, by simp, hp⟩

/-! ## Searches -/

section Search

variable {scope : Tree} {name keyword : String}

/-- **A search finds the outermost nodes in sight with the keyword.** -/
theorem search_fst (p : Pass) (hd : scope.below.Distinct) (name keyword : String) :
    (p.search scope name keyword).1 = tops (marked name keyword (p.view scope)) :=
  hd.outermost_eq

theorem search_snd (p : Pass) (hd : scope.below.Distinct) (name keyword : String) :
    (p.search scope name keyword).2 =
      p.claim ((tops (marked name keyword (p.view scope))).map (·.head.label)) := by
  rw [← p.search_fst hd]
  rfl

@[simp] theorem seen_search (p : Pass) (scope : Tree) (name keyword : String) :
    (p.search scope name keyword).2.seen = p.seen := rfl

theorem gains_search (p : Pass) (hd : scope.below.Distinct) (name keyword : String) :
    p.Gains (.claiming (tops (marked name keyword (p.view scope))))
      (p.search scope name keyword).2 := by
  rw [p.search_snd hd]
  exact p.gains_claim _

theorem mem_view_of_mem_tops {t : Tree} (ht : t ∈ tops (marked name keyword (p.view scope))) :
    t ∈ p.view scope :=
  (mem_marked.1 (mem_tops.1 ht).1).1

/-- Claiming nodes takes what lies at or below them out of sight. -/
theorem view_claim (p : Pass) (hd : scope.below.Distinct) {ts : List Tree}
    (hts : ∀ t ∈ ts, t ∈ scope.below.trees) :
    (p.claim (ts.map (·.head.label))).view scope = uncovered (p.view scope) ts := by
  refine hd.visible_claim (fun a ha => ?_) hts
  rw [(p.gains_claim ts).isClaimed, or_comm, Effect.claims_claiming, List.mem_map]
  refine or_congr_right ⟨?_, fun h => ⟨a, h, rfl⟩⟩
  rintro ⟨t, ht, hta⟩
  exact hd.eq_of_label_eq (hts t ht) ha hta ▸ ht

/-- **What a search found is out of sight of the searches after it**, with what lies below. -/
theorem view_search (p : Pass) (hd : scope.below.Distinct) (name keyword : String) :
    (p.search scope name keyword).2.view scope =
      uncovered (p.view scope) (marked name keyword (p.view scope)) := by
  rw [p.search_snd hd, p.view_claim hd fun t ht => mem_below_of_mem_view (mem_view_of_mem_tops ht),
    uncovered_tops]

/-- **What is below a node that a search found stays in sight of the rules that look at it.** -/
theorem view_found (p : Pass) (hd : scope.below.Distinct) {t : Tree}
    (ht : t ∈ tops (marked name keyword (p.view scope))) :
    (p.search scope name keyword).2.view t = inside t (p.view scope) := by
  have htv := mem_view_of_mem_tops ht
  have hts := mem_below_of_mem_view htv
  have hv : p.view t = inside t (p.view scope) := hd.visible_below htv
  rw [← hv, p.search_snd hd]
  refine (p.gains_claim _).view_eq (hd.below hts) fun l hl hlt => ?_
  obtain ⟨s, hs, rfl⟩ := List.mem_map.1 hl
  have hss := mem_below_of_mem_view (mem_view_of_mem_tops hs)
  exact not_mem_below_of_mem_tops t ht s hs ((hd.label_mem_below_iff hss hts).1 hlt)

end Search

/-! ## One node after another -/

/-- What a rule claims below one node leaves in sight what lies below a node apart from it. -/
theorem Gains.view_apart {scope s t : Tree} (hd : scope.below.Distinct) (h : p.Gains a q)
    (hs : s ∈ scope.below.trees) (ht : t ∈ scope.below.trees) (hne : s ≠ t)
    (hst : t ∉ s.below.trees) (hts : s ∉ t.below.trees) (ha : ∀ l ∈ a.claims, l ∈ s.below.labels) :
    q.view t = p.view t :=
  h.view_eq (hd.below ht) fun l hl => hd.apart hs ht hne hst hts l (ha l hl)

/-- Rules that look at nodes apart from each other do not notice each other: each has in sight what
it would have had without the others. -/
theorem gains_foldl_apart (check : Pass → Tree → Pass) (effect : List Tree → Tree → Effect)
    {scope : Tree} (hd : scope.below.Distinct) {ts : List Tree}
    (hts : ∀ t ∈ ts, t ∈ scope.below.trees) (hnd : ts.Nodup)
    (hapart : ∀ s ∈ ts, ∀ t ∈ ts, t ∉ s.below.trees)
    (hcheck : ∀ (q : Pass) (t : Tree), t.below.Distinct → q.Gains (effect (q.view t) t) (check q t))
    (hclaims : ∀ {view t l}, l ∈ (effect view t).claims → ∃ s ∈ view, s.head.label = l)
    (p : Pass) :
    p.Gains (.all (ts.map fun t => effect (p.view t) t)) (ts.foldl check p) := by
  induction ts generalizing p with
  | nil => exact p.gains_refl
  | cons t rest ih =>
    have ht := hcheck p t (hd.below (hts t List.mem_cons_self))
    have hview : ∀ s ∈ rest, (check p t).view s = p.view s := fun s hs => by
      have hs' := List.mem_cons_of_mem t hs
      refine ht.view_apart hd (hts t List.mem_cons_self) (hts s hs') ?_
        (hapart t List.mem_cons_self s hs') (hapart s hs' t List.mem_cons_self) fun l hl => ?_
      · rintro rfl
        exact (List.nodup_cons.1 hnd).1 hs
      · obtain ⟨u, hu, rfl⟩ := hclaims hl
        exact Forest.label_mem_labels (mem_below_of_mem_view hu)
    have hrest := ih (fun s hs => hts s (List.mem_cons_of_mem t hs)) (List.nodup_cons.1 hnd).2
      (fun s hs u hu => hapart s (List.mem_cons_of_mem t hs) u (List.mem_cons_of_mem t hu))
      (check p t)
    rw [List.map_congr_left fun s hs => by rw [hview s hs]] at hrest
    exact ht.trans hrest

/-- **Rules that look at outermost nodes do not notice each other.** -/
theorem gains_foldl (check : Pass → Tree → Pass) (effect : List Tree → Tree → Effect)
    {scope : Tree} (hd : scope.below.Distinct) {us : List Tree}
    (hus : us.Sublist scope.below.trees)
    (hcheck : ∀ (q : Pass) (t : Tree), t.below.Distinct → q.Gains (effect (q.view t) t) (check q t))
    (hclaims : ∀ {view t l}, l ∈ (effect view t).claims → ∃ s ∈ view, s.head.label = l)
    (p : Pass) {view : Tree → List Tree} (hview : ∀ t ∈ tops us, p.view t = view t) :
    p.Gains (.all ((tops us).map fun t => effect (view t) t)) ((tops us).foldl check p) := by
  have hsub : (tops us).Sublist scope.below.trees := (tops_sublist us).trans hus
  have h := gains_foldl_apart check effect hd (fun _ ht => hsub.subset ht)
    (hsub.nodup hd.trees_nodup) not_mem_below_of_mem_tops hcheck hclaims p
  rwa [List.map_congr_left fun t ht => by rw [hview t ht]] at h

/-- The nodes with a keyword in sight of a node are below it. -/
theorem marked_view_sublist (p : Pass) (scope : Tree) (name keyword : String) :
    (marked name keyword (p.view scope)).Sublist scope.below.trees :=
  (marked_sublist ..).trans (p.view_sublist scope)

theorem seen_foldl {check : Pass → Tree → Pass} (h : ∀ p t, (check p t).seen = p.seen)
    (ts : List Tree) (p : Pass) : (ts.foldl check p).seen = p.seen := by
  induction ts generalizing p with
  | nil => rfl
  | cons t rest ih => rw [List.foldl_cons, ih, h]

end Pass

end HAtom

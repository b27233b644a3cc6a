import HAtom.Proofs.SessionsMade
import Mathlib.Data.Finset.Card

/-!
# What a registry keeps

A host asks a registry for sessions by name, in any order. What it gets is a matter of the history
of these requests: which session was made last for a name, and how many other names have been used
since the name was used last.

* `Request` is what a host asks, `Registry.serve` what becomes of the registry, and
  `Registry.event` what it means for the names. A history is a list of events, the last one first.
* `Registry.Takes`: all that a request can do to the entries of a registry.
* `Served.Kept` is the invariant of a run: no more names than the capacity, each under the session
  that was made last for it, and behind it only names that were used since.
* `Served.lookups_after`: what a lookup finds after any requests.
-/

namespace HAtom

/-! ## Requests and events -/

/-- What a host asks of a registry. -/
inductive Request
  | create (name : String)
  | get (name : String)
  | contains (name : String)
  | remove (name : String)
  | check (name text : String) (elapsed : Nat)
  | addMessage (name message : String)

/-- What a request means for the names of a registry. -/
inductive Event
  /-- A session was made for the name. -/
  | made (name : String) (number : Nat)
  /-- The session of the name was looked up and found. -/
  | found (name : String) (number : Nat)
  | removed (name : String)
  /-- No name was used. -/
  | unused

namespace Event

/-- The name that was used. -/
def used? : Event → Option String
  | made name _ => some name
  | found name _ => some name
  | _ => none

variable (name : String)

/-- The number of the session that was made last for a name. -/
def latest : List Event → Option Nat
  | [] => none
  | made n number :: earlier => if n = name then some number else latest earlier
  | _ :: earlier => latest earlier

/-- The events since a name was used last. -/
def sinceUse (history : List Event) : List Event := history.takeWhile fun e => e.used? != some name

/-- The names that were used since a name was used last. -/
def othersUsed (history : List Event) : Finset String :=
  ((sinceUse name history).filterMap used?).toFinset

variable {name} {e : Event} {history : List Event} {m : String}

theorem sinceUse_cons_self (h : e.used? = some name) : sinceUse name (e :: history) = [] :=
  List.takeWhile_cons_of_neg (by simp [h])

theorem sinceUse_cons_other (h : e.used? ≠ some name) :
    sinceUse name (e :: history) = e :: sinceUse name history :=
  List.takeWhile_cons_of_pos (by simpa using h)

theorem sinceUse_cons_none (h : e.used? = none) :
    sinceUse name (e :: history) = e :: sinceUse name history :=
  sinceUse_cons_other (by simp [h])

theorem othersUsed_cons_self (h : e.used? = some name) : othersUsed name (e :: history) = ∅ := by
  rw [othersUsed, sinceUse_cons_self h]
  rfl

theorem othersUsed_cons_other (h : e.used? = some m) (hm : m ≠ name) :
    othersUsed name (e :: history) = insert m (othersUsed name history) := by
  have hne : e.used? ≠ some name := fun he => hm (Option.some.inj (h.symm.trans he))
  rw [othersUsed, sinceUse_cons_other hne, List.filterMap_cons_some h, List.toFinset_cons,
    othersUsed]

theorem othersUsed_cons_none (h : e.used? = none) :
    othersUsed name (e :: history) = othersUsed name history := by
  rw [othersUsed, sinceUse_cons_none h, List.filterMap_cons_none h, othersUsed]

end Event

namespace Registry

/-- The registry after a request. -/
def serve (r : Registry) : Request → Registry
  | .create name => (r.create name).2
  | .get name => (r.get name).2
  | .contains _ => r
  | .remove name => (r.remove name).2
  | .check name text elapsed => (r.check name text elapsed).2
  | .addMessage name message => (r.addMessage name message).2

/-- What a lookup means for the names. -/
def lookup (r : Registry) (name : String) : Event :=
  match (r.get name).1 with
  | some number => .found name number
  | none => .unused

/-- What a request means for the names. -/
def event (r : Registry) : Request → Event
  | .create name => .made name (r.create name).1
  | .get name => r.lookup name
  | .contains _ => .unused
  | .remove name => .removed name
  | .check name _ _ => .made name (r.create name).1
  | .addMessage name _ => r.lookup name

/-! ## What a request can do -/

/-- No name twice, no more names than the capacity, and behind each name a session for it. -/
structure Sound (r : Registry) : Prop where
  bounded : r.entries.length ≤ r.capacity
  names : (r.entries.map Prod.fst).Nodup
  session : ∀ e ∈ r.entries, ∃ s, r.session? e.2 = some s ∧ s.document = e.1

/-- The entries once a name was used. -/
def use (r : Registry) (name : String) (number : Nat) : List (String × Nat) :=
  ((name, number) :: r.others name).take r.capacity

/-- What an event can do to the entries. -/
inductive Takes (r : Registry) : Event → List (String × Nat) → Prop
  | made (name : String) :
    Takes r (.made name r.sessions.length) (r.use name r.sessions.length)
  | found {name : String} {number : Nat} (h : (name, number) ∈ r.entries) :
    Takes r (.found name number) (r.use name number)
  | removed (name : String) : Takes r (.removed name) (r.others name)
  | unused : Takes r .unused r.entries

variable {r : Registry} {name : String} {number : Nat}

theorem others_sublist (r : Registry) (name : String) : (r.others name).Sublist r.entries :=
  List.filter_sublist

theorem mem_others {e : String × Nat} : e ∈ r.others name ↔ e ∈ r.entries ∧ e.1 ≠ name := by
  simp [others]

/-- An entry that is there has room. -/
theorem Sound.use_eq (h : r.Sound) (hmem : (name, number) ∈ r.entries) :
    r.use name number = (name, number) :: r.others name := by
  refine List.take_of_length_le ((Nat.succ_le_of_lt ?_).trans h.bounded)
  exact List.length_filter_lt_length_iff_exists.2 ⟨_, hmem, by simp⟩

/-- A name has one entry at most. -/
theorem Sound.eq_of_mem (h : r.Sound) {k : Nat} (hmem : (name, number) ∈ r.entries)
    (hk : (name, k) ∈ r.entries) : number = k :=
  congrArg Prod.snd (List.inj_on_of_nodup_map h.names hmem hk rfl)

theorem get_of_not_mem (h : ∀ e ∈ r.entries, e.1 ≠ name) : r.get name = (none, r) := by
  have hnone : r.entries.find? (fun e => e.1 == name) = none :=
    List.find?_eq_none.2 fun e he => by simpa using h e he
  simp only [get, hnone]

theorem Sound.get_of_mem (h : r.Sound) (hmem : (name, number) ∈ r.entries) :
    r.get name = (some number, { r with entries := r.use name number }) := by
  have hsome : (r.entries.find? fun e => e.1 == name).isSome :=
    List.find?_isSome.2 ⟨_, hmem, by simp⟩
  obtain ⟨⟨n, k⟩, hfind⟩ := Option.isSome_iff_exists.1 hsome
  obtain rfl : n = name := by simpa using List.find?_some hfind
  obtain rfl := h.eq_of_mem hmem (List.mem_of_find?_eq_some hfind)
  simp only [get, hfind, h.use_eq hmem]

/-- **A lookup finds a session exactly when there is an entry.** -/
theorem Sound.get_fst_eq_some (h : r.Sound) :
    (r.get name).1 = some number ↔ (name, number) ∈ r.entries := by
  refine ⟨fun hget => ?_, fun hmem => by rw [h.get_of_mem hmem]⟩
  by_cases hname : ∃ e ∈ r.entries, e.1 = name
  · obtain ⟨⟨_, k⟩, hmem, rfl⟩ := hname
    rw [h.get_of_mem hmem] at hget
    exact Option.some.inj hget ▸ hmem
  · rw [get_of_not_mem fun e he hn => hname ⟨e, he, hn⟩] at hget
    cases hget

theorem Sound.takes_get (h : r.Sound) (name : String) :
    r.Takes (r.lookup name) (r.get name).2.entries := by
  unfold lookup
  by_cases hname : ∃ e ∈ r.entries, e.1 = name
  · obtain ⟨⟨_, k⟩, hmem, rfl⟩ := hname
    rw [h.get_of_mem hmem]
    exact .found hmem
  · rw [get_of_not_mem fun e he hn => hname ⟨e, he, hn⟩]
    exact .unused

theorem entries_check (r : Registry) (name text : String) (elapsed : Nat) :
    (r.check name text elapsed).2.entries = r.use name r.sessions.length := by
  rw [check_eq]
  rfl

/-- **All that a request can do to the entries**: it uses a name for a new session or for the one
that is there, removes a name, or leaves all as it is. -/
theorem Sound.takes_serve (h : r.Sound) (q : Request) :
    r.Takes (r.event q) (r.serve q).entries := by
  cases q with
  | create name => exact .made name
  | get name => exact h.takes_get name
  | contains name => exact .unused
  | remove name => exact .removed name
  | check name text elapsed =>
    rw [serve, entries_check]
    exact .made name
  | addMessage name message =>
    rw [serve, entries_addMessage]
    exact h.takes_get name

theorem capacity_get (r : Registry) (name : String) : (r.get name).2.capacity = r.capacity := by
  unfold get
  split <;> rfl

theorem capacity_serve (r : Registry) (q : Request) : (r.serve q).capacity = r.capacity := by
  cases q with
  | get name => exact capacity_get r name
  | check name text elapsed => rw [serve, check_eq]; rfl
  | addMessage name message =>
    rw [serve, ← capacity_get r name, addMessage]
    rcases r.get name with ⟨number?, r'⟩
    cases number? <;> rfl
  | _ => rfl

/-! ## Sessions stay -/

/-- A session keeps its number and its document. -/
theorem session?_serve {s : Session} (h : r.session? number = some s) (q : Request) :
    ∃ s', (r.serve q).session? number = some s' ∧ s'.document = s.document := by
  have hne : number ≠ r.sessions.length := (number_lt h).ne
  cases q with
  | create name => exact ⟨s, by rw [serve, session?_create, if_neg hne, h], rfl⟩
  | get name => exact ⟨s, by rw [serve, session?_get, h], rfl⟩
  | contains name => exact ⟨s, h, rfl⟩
  | remove name => exact ⟨s, by rw [serve, session?_remove, h], rfl⟩
  | check name text elapsed => exact ⟨s, by rw [serve, session?_check, if_neg hne, h], rfl⟩
  | addMessage name message =>
    rw [serve, session?_addMessage, h]
    split
    · exact ⟨_, rfl, rfl⟩
    · exact ⟨s, rfl, rfl⟩

/-- A session that is made is one for the name. -/
theorem session?_serve_made {q : Request} (h : r.event q = .made name number) :
    ∃ s, (r.serve q).session? number = some s ∧ s.document = name := by
  have hlookup : ∀ n, r.lookup n ≠ .made name number := fun n => by
    unfold lookup
    split <;> exact Event.noConfusion
  cases q with
  | create n =>
    obtain ⟨rfl, rfl⟩ := Event.made.inj h
    exact ⟨_, session?_create_new r n, rfl⟩
  | check n text elapsed =>
    obtain ⟨rfl, rfl⟩ := Event.made.inj h
    exact ⟨_, (session?_check ..).trans (if_pos rfl), Session.document_act _ (.check text elapsed)⟩
  | get n => exact absurd h (hlookup n)
  | addMessage n message => exact absurd h (hlookup n)
  | contains n => cases h
  | remove n => cases h

/-- **A step of a run** leaves a registry sound. -/
theorem Sound.serve (h : r.Sound) (q : Request) : (r.serve q).Sound := by
  have htakes := h.takes_serve q
  -- what was there before is still there, and a name that is used has a session
  have hold : ∀ e ∈ r.entries, ∃ s, (r.serve q).session? e.2 = some s ∧ s.document = e.1 := by
    intro e he
    obtain ⟨s, hs, hdocument⟩ := h.session e he
    obtain ⟨s', hs', hdocument'⟩ := session?_serve hs q
    exact ⟨s', hs', hdocument'.trans hdocument⟩
  have huse : ∀ name number, (r.serve q).entries = r.use name number →
      (∃ s, (r.serve q).session? number = some s ∧ s.document = name) → (r.serve q).Sound := by
    intro name number hentries hsession
    refine ⟨?_, ?_, fun e he => ?_⟩
    · rw [hentries, capacity_serve]
      exact List.length_take_le ..
    · rw [hentries]
      refine ((List.take_sublist ..).map Prod.fst).nodup ?_
      rw [List.map_cons, List.nodup_cons]
      refine ⟨fun hmem => ?_, ((r.others_sublist name).map Prod.fst).nodup h.names⟩
      obtain ⟨e, he, hname⟩ := List.mem_map.1 hmem
      exact (mem_others.1 he).2 hname
    · rw [hentries] at he
      rcases List.mem_cons.1 (List.mem_of_mem_take he) with rfl | he
      · exact hsession
      · exact hold e (mem_others.1 he).1
  have hkeep : (r.serve q).entries.Sublist r.entries → (r.serve q).Sound := fun hsub => by
    refine ⟨?_, (hsub.map Prod.fst).nodup h.names, fun e he => hold e (hsub.subset he)⟩
    rw [capacity_serve]
    exact hsub.length_le.trans h.bounded
  generalize hentries : (r.serve q).entries = entries at htakes
  generalize hevent : r.event q = event at htakes
  cases htakes with
  | made name => exact huse _ _ hentries (session?_serve_made hevent)
  | found hmem => exact huse _ _ hentries (hold _ hmem)
  | removed name => exact hkeep (hentries ▸ r.others_sublist name)
  | unused => exact hkeep (hentries ▸ List.Sublist.refl _)

/-! ## What is recalled -/

/-- A name stands among entries behind none but some names. -/
def StandsBehind (names : Finset String) (name : String) (number : Nat)
    (entries : List (String × Nat)) : Prop :=
  ∃ before after, entries = before ++ (name, number) :: after ∧ ∀ e ∈ before, e.1 ∈ names

theorem StandsBehind.mem {names : Finset String} {entries : List (String × Nat)}
    (h : StandsBehind names name number entries) : (name, number) ∈ entries := by
  obtain ⟨before, after, rfl, -⟩ := h
  exact List.mem_append_right _ List.mem_cons_self

theorem StandsBehind.others {names : Finset String} {m : String} (hm : m ≠ name)
    (h : StandsBehind names name number r.entries) :
    StandsBehind names name number (r.others m) := by
  obtain ⟨before, after, hentries, hbefore⟩ := h
  refine ⟨before.filter fun e => e.1 != m, after.filter fun e => e.1 != m, ?_, fun e he =>
    hbefore e (List.mem_of_mem_filter he)⟩
  rw [Registry.others, hentries, List.filter_append,
    List.filter_cons_of_pos (by simpa using hm.symm)]

/-- A name that stands behind fewer names than there is room for is not pushed out when another name
is used. -/
theorem StandsBehind.use (h : r.Sound) {names : Finset String} {m : String} {k : Nat}
    (hm : m ≠ name) (hstands : StandsBehind names name number r.entries)
    (hroom : (insert m names).card < r.capacity) :
    StandsBehind (insert m names) name number (r.use m k) := by
  obtain ⟨before, after, hothers, hbefore⟩ := hstands.others hm
  have hnames : ∀ e ∈ (m, k) :: before, e.1 ∈ insert m names :=
    List.forall_mem_cons.2 ⟨Finset.mem_insert_self .., fun e he =>
      Finset.mem_insert_of_mem (hbefore e he)⟩
  have hnodup : (((m, k) :: before).map Prod.fst).Nodup := by
    have hsub : before.Sublist (r.others m) := hothers ▸ List.sublist_append_left ..
    rw [List.map_cons, List.nodup_cons]
    refine ⟨fun hmem => ?_, ((hsub.trans (r.others_sublist m)).map Prod.fst).nodup h.names⟩
    obtain ⟨e, he, hname⟩ := List.mem_map.1 hmem
    exact (mem_others.1 (hsub.subset he)).2 hname
  -- so many entries stand before the name as there are names, which is less than the capacity
  have hlength : ((m, k) :: before).length < r.capacity := by
    refine lt_of_le_of_lt ?_ hroom
    rw [← List.length_map Prod.fst, ← List.toFinset_card_of_nodup hnodup]
    refine Finset.card_le_card fun n hn => ?_
    obtain ⟨e, he, rfl⟩ := List.mem_map.1 (List.mem_toFinset.1 hn)
    exact hnames e he
  obtain ⟨room, hcapacity⟩ := Nat.exists_eq_add_of_lt hlength
  refine ⟨(m, k) :: before, after.take room, ?_, hnames⟩
  rw [Registry.use, hothers, ← List.cons_append, List.take_append,
    List.take_of_length_le hlength.le, hcapacity]
  congr 1
  rw [Nat.add_assoc, Nat.add_sub_cancel_left, List.take_succ_cons]

/-- What a history says about a registry: each name has the session that was made last for it, and
only names that were used since stand before it. A name that has gone was removed, or there was no
room for so many others. -/
structure Recalls (r : Registry) (history : List Event) : Prop where
  latest : ∀ e ∈ r.entries, Event.latest e.1 history = some e.2
  stands : ∀ name number, Event.latest name history = some number →
    .removed name ∉ Event.sinceUse name history →
    (Event.othersUsed name history).card < r.capacity →
    StandsBehind (Event.othersUsed name history) name number r.entries

variable {history : List Event}

/-- What a history says once a name was used. -/
theorem Recalls.use (h : r.Sound) (hr : r.Recalls history) {r' : Registry} {e : Event} {m : String}
    {k : Nat} (hcapacity : r'.capacity = r.capacity) (hentries : r'.entries = r.use m k)
    (hused : e.used? = some m) (hlatest : Event.latest m (e :: history) = some k)
    (hothers : ∀ n, n ≠ m → Event.latest n (e :: history) = Event.latest n history) :
    r'.Recalls (e :: history) where
  latest := by
    intro entry hentry
    rw [hentries] at hentry
    rcases List.mem_cons.1 (List.mem_of_mem_take hentry) with rfl | hentry
    · exact hlatest
    · obtain ⟨hmem, hne⟩ := mem_others.1 hentry
      rw [hothers _ hne]
      exact hr.latest entry hmem
  stands := by
    intro name number hname hremoved hroom
    rw [hcapacity] at hroom
    rw [hentries]
    by_cases hm : m = name
    · -- the name that was just used stands before all others
      subst hm
      obtain rfl : k = number := Option.some.inj (hlatest.symm.trans hname)
      obtain ⟨room, hroom⟩ := Nat.exists_eq_add_of_lt hroom
      refine ⟨[], (r.others m).take (r.capacity - 1), ?_, fun e he => absurd he List.not_mem_nil⟩
      rw [Registry.use, hroom, List.take_succ_cons, Nat.add_sub_cancel]
      rfl
    · have hne : e.used? ≠ some name := fun he => hm (Option.some.inj (hused.symm.trans he))
      rw [Event.othersUsed_cons_other hused hm] at hroom ⊢
      rw [hothers _ (Ne.symm hm)] at hname
      rw [Event.sinceUse_cons_other hne] at hremoved
      exact (hr.stands name number hname (mt (List.mem_cons_of_mem _) hremoved)
        (lt_of_le_of_lt (Finset.card_le_card (Finset.subset_insert ..)) hroom)).use h hm hroom

/-- What a history says when no name was used and nothing that counts was removed. -/
theorem Recalls.still (hr : r.Recalls history) {r' : Registry} {e : Event}
    (hcapacity : r'.capacity = r.capacity) (hentries : r'.entries ⊆ r.entries)
    (hunused : e.used? = none)
    (hstands : ∀ names name number, e ≠ .removed name →
      StandsBehind names name number r.entries → StandsBehind names name number r'.entries)
    (hlatest : ∀ n, Event.latest n (e :: history) = Event.latest n history) :
    r'.Recalls (e :: history) where
  latest := fun entry hentry => (hlatest _).trans (hr.latest entry (hentries hentry))
  stands := by
    intro name number hname hremoved hroom
    rw [hlatest] at hname
    rw [Event.sinceUse_cons_none hunused, List.mem_cons, not_or] at hremoved
    rw [Event.othersUsed_cons_none hunused] at hroom ⊢
    rw [hcapacity] at hroom
    exact hstands _ _ _ (Ne.symm hremoved.1) (hr.stands name number hname hremoved.2 hroom)

/-- **A step of a run** is recorded in the history. -/
theorem Recalls.serve (h : r.Sound) (hr : r.Recalls history) (q : Request) :
    (r.serve q).Recalls (r.event q :: history) := by
  have htakes := h.takes_serve q
  have hcapacity := r.capacity_serve q
  generalize hentries : (r.serve q).entries = entries at htakes
  generalize r.event q = event at htakes
  cases htakes with
  | made name =>
    exact hr.use h hcapacity hentries rfl (if_pos rfl) fun n hn => if_neg (Ne.symm hn)
  | found hmem => exact hr.use h hcapacity hentries rfl (hr.latest _ hmem) fun _ _ => rfl
  | removed m =>
    refine hr.still hcapacity (hentries ▸ (r.others_sublist m).subset) rfl ?_ fun _ => rfl
    intro names name number hne hstands
    rw [hentries]
    exact hstands.others fun hm => hne (congrArg Event.removed hm)
  | unused =>
    refine hr.still hcapacity (hentries ▸ List.Subset.refl _) rfl ?_ fun _ => rfl
    intro names name number _ hstands
    rwa [hentries]

end Registry

/-! ## Runs -/

/-- A registry with the history of what it was asked, the last event first. -/
structure Served where
  registry : Registry
  history : List Event

namespace Served

/-- What a request leaves. -/
def serve (s : Served) (q : Request) : Served :=
  ⟨s.registry.serve q, s.registry.event q :: s.history⟩

/-- What requests leave of a registry without sessions. -/
def run (capacity : Nat) (requests : List Request) : Served :=
  requests.foldl serve ⟨.empty capacity, []⟩

/-- The invariant of a run. -/
structure Kept (capacity : Nat) (s : Served) : Prop where
  capacity : s.registry.capacity = capacity
  sound : s.registry.Sound
  recalls : s.registry.Recalls s.history

theorem kept_empty (capacity : Nat) : Kept capacity ⟨.empty capacity, []⟩ where
  capacity := rfl
  sound := ⟨Nat.zero_le _, List.nodup_nil, fun _ he => absurd he List.not_mem_nil⟩
  recalls := ⟨fun _ he => absurd he List.not_mem_nil, fun _ _ h => nomatch h⟩

theorem Kept.serve {capacity : Nat} {s : Served} (h : Kept capacity s) (q : Request) :
    Kept capacity (s.serve q) where
  capacity := (s.registry.capacity_serve q).trans h.capacity
  sound := h.sound.serve q
  recalls := h.recalls.serve h.sound q

theorem kept_run (capacity : Nat) (requests : List Request) :
    Kept capacity (run capacity requests) := by
  have hfold : ∀ s, Kept capacity s → Kept capacity (requests.foldl Served.serve s) := by
    induction requests with
    | nil => exact fun s h => h
    | cons q rest ih => exact fun s h => ih _ (h.serve q)
  exact hfold _ (kept_empty capacity)

/-- **What a registry keeps**, after any requests. There are never more names than its capacity. A
lookup finds no session but the one that was made last for the name; and it finds that one unless
the name was removed, or as many other names as there is room for were used, since the name was used
last. So a session that was just made is found if there is room at all. A message becomes one report
that names no node, at the end of what the session that a lookup finds has reported. Nothing else of
that session changes and no other session does, those that no name leads to any more included. -/
theorem lookups_after (capacity : Nat) (requests : List Request) :
    let s := run capacity requests
    s.registry.size ≤ capacity ∧ (s.registry.entries.map Prod.fst).Nodup ∧
      (∀ name number, (s.registry.get name).1 = some number →
        Event.latest name s.history = some number ∧
          ∃ session, s.registry.session? number = some session ∧ session.document = name) ∧
      (∀ name number, Event.latest name s.history = some number →
        Event.removed name ∉ Event.sinceUse name s.history →
        (Event.othersUsed name s.history).card < capacity →
        (s.registry.get name).1 = some number) ∧
      (∀ name, 0 < capacity →
        ((s.registry.create name).2.get name).1 = some (s.registry.create name).1) ∧
      ∀ name message,
        (s.registry.addMessage name message).1 = (s.registry.get name).1.isSome ∧
        ∀ number, (s.registry.addMessage name message).2.session? number =
          if (s.registry.get name).1 = some number then
            (s.registry.session? number).map fun session =>
              { session with reports := session.reports ++ [⟨message, none⟩] }
          else s.registry.session? number := by
  intro s
  have h : Kept capacity s := kept_run capacity requests
  have hsize : s.registry.size ≤ capacity := h.capacity ▸ h.sound.bounded
  refine ⟨hsize, h.sound.names, fun name number hget => ?_,
    fun name number hlatest hkept hroom => ?_, fun name hroom => ?_,
    fun name message => ⟨?_, fun number => ?_⟩⟩
  · have hmem := h.sound.get_fst_eq_some.1 hget
    exact ⟨h.recalls.latest _ hmem, h.sound.session _ hmem⟩
  · rw [← h.capacity] at hroom
    exact h.sound.get_fst_eq_some.2 (h.recalls.stands name number hlatest hkept hroom).mem
  · -- the requests and one more, which makes a session for the name
    have hnew := h.serve (.create name)
    rw [← hnew.capacity] at hroom
    refine hnew.sound.get_fst_eq_some.2 (hnew.recalls.stands name _ (if_pos rfl) ?_ ?_).mem
    · rw [serve, Registry.event, Event.sinceUse_cons_self rfl]
      exact List.not_mem_nil
    · rw [serve, Registry.event, Event.othersUsed_cons_self rfl]
      exact hroom
  · exact Registry.addMessage_fst ..
  · exact Registry.session?_addMessage ..

/-- There is room for two names. A message looked the first one up before a third one came, so it is
found and the second one is not. Another message comes after that one in the session of the first
name, and the session of the second one stays as it was made. -/
theorem lookups_after_third_name :
    let s := run 2 [.create "a", .create "b", .addMessage "a" "early", .create "c"]
    (s.registry.get "a").1 = some 0 ∧ Event.latest "b" s.history = some 1 ∧
      (s.registry.get "b").1 = none ∧
      (∃ session, s.registry.session? 0 = some session ∧ session.document = "a") ∧
      (s.registry.addMessage "a" "late").2.session? 0 =
        some { Session.new "a" with reports := [⟨"early", none⟩, ⟨"late", none⟩] } ∧
      (s.registry.addMessage "a" "late").2.session? 1 = some (Session.new "b") := by
  intro s
  have h := lookups_after 2 [.create "a", .create "b", .addMessage "a" "early", .create "c"]
  have hkept : Event.removed "a" ∉ Event.sinceUse "a" s.history := by
    have hsince : Event.sinceUse "a" s.history = [.made "c" 2] := rfl
    simp [hsince]
  have hroom : (Event.othersUsed "a" s.history).card < 2 := by decide
  have hfound : (s.registry.get "a").1 = some 0 := h.2.2.2.1 "a" 0 rfl hkept hroom
  have htold := (h.2.2.2.2.2 "a" "late").2
  refine ⟨hfound, rfl, rfl, (h.2.2.1 "a" 0 hfound).2, ?_, ?_⟩
  · exact (htold 0).trans (if_pos hfound)
  · exact (htold 1).trans (if_neg (by rw [hfound]; decide))

end Served

end HAtom

import HAtom.Rules.Page

/-!
# Findings made earlier

The rules write findings and never read them. So a pass that begins with findings already made, by
whomever, does what it would do without them and writes its own behind them, one after another.

* `Pass.behind` puts findings before all those of a pass. Every rule commutes with it.
* `Pass.findings_behind`: a pass over a page leaves findings made earlier as they are, and adds
  those of the page.
-/

namespace HAtom.Pass

open Markup

/-- The pass with findings made before all of its own. -/
def behind (held : List Finding) (p : Pass) : Pass := { p with findings := held ++ p.findings }

variable (held : List Finding) (p : Pass)

/-! ## What rules share -/

@[simp] theorem isClaimed_behind : (p.behind held).isClaimed = p.isClaimed := rfl

@[simp] theorem isHidden_behind : (p.behind held).isHidden = p.isHidden := rfl

@[simp] theorem seen_behind : (p.behind held).seen = p.seen := rfl

theorem behind_ite (c : Prop) [Decidable c] (p q : Pass) :
    (if c then p else q).behind held = if c then p.behind held else q.behind held :=
  apply_ite (behind held) c p q

@[simp] theorem add_behind (fs : List Finding) :
    (p.behind held).add fs = (p.add fs).behind held := by
  simp [add, behind, List.append_assoc]

@[simp] theorem forget_behind (name : String) :
    (p.behind held).forget name = (p.forget name).behind held := rfl

@[simp] theorem note_behind (problem : Problem) (n : Node) :
    (p.behind held).note problem n = (p.note problem n).behind held := add_behind ..

@[simp] theorem noteIf_behind (c : Bool) (problem : Problem) (n : Node) :
    (p.behind held).noteIf c problem n = (p.noteIf c problem n).behind held := by
  cases c
  · rfl
  · exact note_behind ..

@[simp] theorem noteEach_behind (problem : Problem) (ts : List Tree) :
    (p.behind held).noteEach problem ts = (p.noteEach problem ts).behind held := add_behind ..

@[simp] theorem search_fst_behind (scope : Tree) (name keyword : String) :
    ((p.behind held).search scope name keyword).1 = (p.search scope name keyword).1 := rfl

@[simp] theorem search_snd_behind (scope : Tree) (name keyword : String) :
    ((p.behind held).search scope name keyword).2 =
      (p.search scope name keyword).2.behind held := rfl

/-- Rules that commute with earlier findings one by one do so one after another. -/
theorem foldl_behind {α : Type} {check : Pass → α → Pass}
    (h : ∀ p a, check (p.behind held) a = (check p a).behind held) (l : List α) :
    l.foldl check (p.behind held) = (l.foldl check p).behind held := by
  induction l generalizing p with
  | nil => rfl
  | cons a rest ih => rw [List.foldl_cons, h, ih, List.foldl_cons]

@[simp] theorem checkNested_behind (t : Tree) (name keyword : String) :
    (p.behind held).checkNested t name keyword = (p.checkNested t name keyword).behind held :=
  noteEach_behind ..

@[simp] theorem checkAllNested_behind (ts : List Tree) (name keyword : String) :
    (p.behind held).checkAllNested ts name keyword =
      (p.checkAllNested ts name keyword).behind held :=
  foldl_behind held p (fun _ _ => checkNested_behind ..) ts

@[simp] theorem collect_fst_behind (scope : Tree) (name keyword : String) :
    ((p.behind held).collect scope name keyword).1 = (p.collect scope name keyword).1 := rfl

@[simp] theorem collect_snd_behind (scope : Tree) (name keyword : String) :
    ((p.behind held).collect scope name keyword).2 =
      (p.collect scope name keyword).2.behind held := by
  simp only [collect, search_fst_behind, search_snd_behind, checkAllNested_behind]

@[simp] theorem remember_snd_behind (name : String) (n : Node) :
    ((p.behind held).remember name n).2 = (p.remember name n).2.behind held := by
  unfold remember
  repeat' split
  all_goals rfl

@[simp] theorem checkKey_behind (kind : KeyKind) (key : Node) :
    (p.behind held).checkKey kind key = (p.checkKey kind key).behind held := by
  simp only [checkKey, note_behind, remember_snd_behind, seen_behind, behind_ite]

@[simp] theorem scanNodes_behind (nodes : List Node) (keywords : List String) :
    (p.behind held).scanNodes nodes keywords = (p.scanNodes nodes keywords).behind held :=
  add_behind ..

@[simp] theorem scanBelow_behind (scope : Forest) (keywords : List String) :
    (p.behind held).scanBelow scope keywords = (p.scanBelow scope keywords).behind held :=
  scanNodes_behind ..

/-! ## Authors -/

@[simp] theorem checkNames_behind (card : Tree) :
    (p.behind held).checkNames card = (p.checkNames card).behind held := by
  simp only [checkNames, search_fst_behind, search_snd_behind, note_behind, noteEach_behind,
    behind_ite]

@[simp] theorem checkAddresses_behind (card : Tree) :
    (p.behind held).checkAddresses card = (p.checkAddresses card).behind held := by
  simp only [checkAddresses, search_fst_behind, search_snd_behind, noteEach_behind]

@[simp] theorem checkCard_behind (card : Tree) :
    (p.behind held).checkCard card = (p.checkCard card).behind held := by
  simp only [checkCard, checkNames_behind, checkAddresses_behind]

@[simp] theorem checkAuthor_behind (author : Tree) :
    (p.behind held).checkAuthor author = (p.checkAuthor author).behind held := by
  simp only [checkAuthor, checkCard_behind, search_fst_behind, search_snd_behind, note_behind,
    foldl_behind held _ fun _ _ => checkCard_behind .., behind_ite]

/-! ## Entries -/

@[simp] theorem checkDate_behind (which : DateProperty) (t : Tree) :
    (p.behind held).checkDate which t = (p.checkDate which t).behind held := by
  simp only [checkDate, note_behind, noteIf_behind, behind_ite]

@[simp] theorem checkLink_behind (keyword : String) (t : Tree) :
    (p.behind held).checkLink keyword t = (p.checkLink keyword t).behind held := noteIf_behind ..

@[simp] theorem checkOccurrence_behind (q : Property) (t : Tree) :
    checkOccurrence q (p.behind held) t = (checkOccurrence q p t).behind held := by
  cases q <;> simp only [checkOccurrence, checkDate_behind, checkAuthor_behind, checkLink_behind,
    checkKey_behind]

@[simp] theorem checkCount_behind (entry : Tree) (q : Property) (found : List Tree) :
    (p.behind held).checkCount entry q found = (p.checkCount entry q found).behind held := by
  simp only [checkCount, note_behind, noteEach_behind]
  split <;> rfl

theorem checkProperty_behind (entry : Tree) (q : Property) :
    (p.behind held).checkProperty entry q =
      ((p.checkProperty entry q).1, (p.checkProperty entry q).2.behind held) := by
  simp only [checkProperty, collect_fst_behind, collect_snd_behind, checkCount_behind,
    foldl_behind held _ fun _ _ => checkOccurrence_behind ..]

theorem checkProperties_behind (entry : Tree) (qs : List Property) (before : Nat) :
    checkProperties entry qs before (p.behind held) =
      ((checkProperties entry qs before p).1, (checkProperties entry qs before p).2.behind held) := by
  induction qs generalizing before p with
  | nil => rfl
  | cons q rest ih => simp only [checkProperties, checkProperty_behind, ih]

@[simp] theorem checkEntry_behind (entry : Tree) :
    (p.behind held).checkEntry entry = (p.checkEntry entry).behind held := by
  simp only [checkEntry, forget_behind, checkProperties_behind, noteIf_behind]

/-! ## Feeds and pages -/

@[simp] theorem checkFeedKeys_behind (feed : Tree) :
    (p.behind held).checkFeedKeys feed = (p.checkFeedKeys feed).behind held := by
  simp only [checkFeedKeys, forget_behind, collect_fst_behind, collect_snd_behind]
  exact foldl_behind held _ (fun _ _ => checkKey_behind ..) _

@[simp] theorem checkFeed_behind (explicit : Bool) (feed : Tree) :
    (p.behind held).checkFeed explicit feed = (p.checkFeed explicit feed).behind held := by
  simp only [checkFeed, collect_fst_behind, collect_snd_behind, noteIf_behind,
    checkFeedKeys_behind, foldl_behind held _ fun _ _ => checkEntry_behind .., scanBelow_behind,
    behind_ite]

@[simp] theorem checkRest_behind (d : Document) (keywords : List String) :
    (p.behind held).checkRest d keywords = (p.checkRest d keywords).behind held := by
  simp only [checkRest, isHidden_behind, scanNodes_behind]

theorem checkPage_behind (d : Document) (root : Tree) :
    (p.behind held).checkPage d root = (p.checkPage d root).behind held := by
  simp only [checkPage, collect_fst_behind, collect_snd_behind, checkFeed_behind,
    foldl_behind held _ fun _ _ => checkFeed_behind .., checkRest_behind, behind_ite]

/-- **A pass over a page leaves findings made earlier as they are**, and adds those of the page
behind them. -/
theorem findings_behind (d : Document) :
    ((fresh.behind held).checkPage d d.root).findings = held ++ d.findings := by
  rw [checkPage_behind]
  rfl

end HAtom.Pass

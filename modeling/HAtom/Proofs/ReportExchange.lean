import HAtom.Proofs.JsonLayout
import HAtom.Report.Exchange

/-!
# Reports read back

A report handed to another program comes back as it was: its text is read as the value that it
writes, and the value tells every part of the report. Fields are found by their names, and attributes
keep their order and their repetitions because they are pairs in a list.

* `Json.named_of_mem` and `Json.record?_object`: fields with distinct names are found.
* `Snapshot.ofJson?_toJson` and `Report.ofJson?_toJson`: what a value tells.
* `Report.encode_faithful`: no report is lost, and no two are confused.
-/

namespace HAtom

/-! ## Fields by name -/

namespace Json

variable {fields : List (String × Json)}

theorem named_cons_self (name : String) (v : Json) (fields : List (String × Json)) :
    named name ((name, v) :: fields) = v :: named name fields := by
  simp [named]

theorem named_cons_of_ne {name other : String} (h : other ≠ name) (v : Json)
    (fields : List (String × Json)) : named name ((other, v) :: fields) = named name fields := by
  simp [named, h]

theorem named_eq_nil {name : String} (h : name ∉ fields.map Prod.fst) : named name fields = [] := by
  induction fields with
  | nil => rfl
  | cons first rest ih =>
    rw [List.map_cons, List.mem_cons, not_or] at h
    rw [named_cons_of_ne (Ne.symm h.1), ih h.2]

/-- A field whose name occurs once is the only one of that name. -/
theorem named_of_mem (hnames : (fields.map Prod.fst).Nodup) {name : String} {v : Json}
    (h : (name, v) ∈ fields) : named name fields = [v] := by
  induction fields with
  | nil => cases h
  | cons first rest ih =>
    rw [List.map_cons, List.nodup_cons] at hnames
    obtain rfl | hrest := List.mem_cons.1 h
    · rw [named_cons_self, named_eq_nil hnames.1]
    · have hne : first.1 ≠ name := by
        rintro rfl
        exact hnames.1 (List.mem_map.2 ⟨_, hrest, rfl⟩)
      rw [named_cons_of_ne hne, ih hnames.2 hrest]

end Json

/-- What is read from each of the values made from a list. -/
theorem mapM_map_eq_some {α β γ : Type} {make : α → β} {read : β → Option γ} {of : α → γ}
    {l : List α} (h : ∀ a ∈ l, read (make a) = some (of a)) :
    (l.map make).mapM read = some (l.map of) := by
  induction l with
  | nil => rfl
  | cons a l ih =>
    obtain ⟨ha, hl⟩ := List.forall_mem_cons.1 h
    rw [List.map_cons, List.mapM_cons, ha, ih hl]
    rfl

theorem mapM_map_self {α β : Type} {make : α → β} {read : β → Option α} {l : List α}
    (h : ∀ a ∈ l, read (make a) = some a) : (l.map make).mapM read = some l := by
  rw [mapM_map_eq_some h, List.map_id']

/-- An object is taken apart by its own names. -/
theorem Json.record?_object {fields : List (String × Json)}
    (hnames : (fields.map Prod.fst).Nodup) :
    (object fields).record? (fields.map Prod.fst) =
      some (fields.map fun field => some field.2) := by
  rw [record?]
  apply mapM_map_eq_some
  intro field hfield
  rw [named_of_mem hnames hfield]

/-! ## Snapshots and reports -/

namespace Snapshot

theorem word?_nat (n : UInt32) : word? (.nat n.toNat) = some n := by
  have hbound : n.toNat ≤ 0xFFFFFFFF := by
    have hlt := n.toNat_lt
    omega
  have hnat : (Json.nat n.toNat).nat? 0xFFFFFFFF = some n.toNat := by
    change (if n.toNat ≤ 0xFFFFFFFF then some n.toNat else none) = some n.toNat
    exact if_pos hbound
  rw [word?, hnat]
  simp

theorem mapM_attribute? (attributes : List (String × String)) :
    (attributes.map fun a => Json.array [.string a.1, .string a.2]).mapM attribute? =
      some attributes :=
  mapM_map_self fun _ _ => rfl

/-- The value for a snapshot tells every part of it. -/
theorem ofJson?_toJson (s : Snapshot) : ofJson? s.toJson = some s := by
  have hrecord : s.toJson.record? ["name", "path", "attributes", "line", "column"] = _ :=
    Json.record?_object (by simp)
  rw [ofJson?, hrecord]
  simp only [List.map_cons, List.map_nil, mapM_attribute?, word?_nat]
  rfl

end Snapshot

namespace Report

/-- The value for a report tells its message and its node. -/
theorem ofJson?_toJson (r : Report) : ofJson? r.toJson = some r := by
  have hrecord : r.toJson.record? ["message", "node"] = _ := Json.record?_object (by simp)
  obtain ⟨message, node⟩ := r
  cases node with
  | none =>
    rw [ofJson?, hrecord]
    rfl
  | some s =>
    rw [ofJson?, hrecord]
    change (do return ⟨message, some (← Snapshot.ofJson? s.toJson)⟩) = some (Report.mk message s)
    rw [s.ofJson?_toJson]
    rfl

/-- **No report is lost in its text**, and different reports have different texts. -/
theorem encode_faithful :
    (∀ r : Report, decode? r.encode = some r) ∧ Function.Injective encode := by
  have hread (r : Report) : decode? r.encode = some r := by
    rw [decode?, encode, Json.parse?_compact]
    exact r.ofJson?_toJson
  refine ⟨hread, ?_⟩
  intro r r' heq
  have h := hread r
  rw [heq, hread r'] at h
  exact (Option.some.inj h).symm

/-- Quotes and controls are written with a backslash, letters as they are. -/
example : (ofMessage "\"é\"\n").encode =
    "\x7b\"message\":\"\\\"é\\\"\\n\",\"node\":null\x7d" := by
  cbv

end Report

end HAtom

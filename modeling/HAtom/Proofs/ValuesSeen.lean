import HAtom.ValueCache
import Mathlib.Data.List.DropRight

/-!
# What a cache of values answers

Adding a value and forgetting the values of an attribute change the answers for that attribute only.
So the answers for an attribute can be read off the history of the cache: they are the values that
were added for it since its values were last forgotten, whatever was done for the others meanwhile.

* `ValueCache.Act` is one thing done with a cache, `ValueCache.after` is what becomes of a cache.
* `ValueCache.pushedSince` are the values added since the last reset, read off the acts.
* `ValueCache.answers_since_reset`: these are the values that the cache answers with.
-/

namespace HAtom.ValueCache

theorem valuesIn_update (name key : String) (change : List String → List String)
    (entries : List (String × List String)) :
    valuesIn name (update key change entries) =
      if key = name then change (valuesIn name entries) else valuesIn name entries := by
  induction entries with
  | nil => simp [update, valuesIn]
  | cons entry rest ih =>
    obtain ⟨other, values⟩ := entry
    simp only [update, valuesIn, beq_iff_eq]
    by_cases hk : other = key
    · subst hk
      simp only [if_true, valuesIn, beq_iff_eq]
      split <;> rfl
    · by_cases hn : other = name
      · subst hn
        simp [hk, valuesIn, Ne.symm hk]
      · simp [hk, hn, valuesIn, ih]

theorem values_push (c : ValueCache) (name key value : String) :
    (c.push key value).values name =
      if key = name then c.values name ++ [value] else c.values name :=
  valuesIn_update ..

theorem values_reset (c : ValueCache) (name key : String) :
    (c.reset key).values name = if key = name then [] else c.values name :=
  valuesIn_update ..

/-! ## Histories -/

/-- What is done with a cache. -/
inductive Act
  | push (name value : String)
  | reset (name : String)
  deriving DecidableEq

/-- The attribute for which it is done. -/
def Act.name : Act → String
  | push name _ => name
  | reset name => name

/-- What an act adds to the values of an attribute. -/
def Act.pushed (name : String) : Act → List String
  | push key value => if key = name then [value] else []
  | reset _ => []

/-- The cache after an act. -/
def act (c : ValueCache) : Act → ValueCache
  | .push name value => c.push name value
  | .reset name => c.reset name

/-- The cache after acts, the first one first. -/
def after (c : ValueCache) (acts : List Act) : ValueCache := acts.foldl act c

/-- The values added for an attribute since its last reset, or from the beginning if there was none.
The one added first is the first. -/
def pushedSince (name : String) (acts : List Act) : List String :=
  (acts.rtakeWhile (· ≠ .reset name)).flatMap (Act.pushed name)

theorem pushedSince_concat (name : String) (acts : List Act) (a : Act) :
    pushedSince name (acts ++ [a]) =
      if a = .reset name then [] else pushedSince name acts ++ a.pushed name := by
  by_cases ha : a = .reset name <;> simp [pushedSince, ha]

/-- **A step of a history**: a reset of the attribute leaves no value, and any other act leaves the
values with those that it adds. -/
theorem values_act (c : ValueCache) (name : String) (a : Act) :
    (c.act a).values name = if a = .reset name then [] else c.values name ++ a.pushed name := by
  cases a with
  | push key value =>
    rw [act, values_push, if_neg (show Act.push key value ≠ .reset name from Act.noConfusion)]
    by_cases hkey : key = name <;> simp [Act.pushed, hkey]
  | reset key =>
    rw [act, values_reset]
    by_cases hkey : key = name <;> simp [Act.pushed, hkey]

/-- An act for another attribute is no reset of this one and adds nothing to its values. -/
theorem values_act_of_ne {name : String} {a : Act} (h : a.name ≠ name) (c : ValueCache) :
    (c.act a).values name = c.values name := by
  rw [values_act]
  cases a with
  | push key value => simpa [Act.pushed, Act.name] using h
  | reset key =>
    have hne : Act.reset key ≠ .reset name := fun heq => h (Act.reset.inj heq)
    rw [if_neg hne, Act.pushed, List.append_nil]

theorem after_concat (c : ValueCache) (acts : List Act) (a : Act) :
    c.after (acts ++ [a]) = (c.after acts).act a := by
  rw [after, List.foldl_append]
  rfl

theorem values_after (acts : List Act) (name : String) :
    (empty.after acts).values name = pushedSince name acts := by
  -- the last act is the one that tells whether those before it count
  induction acts using List.reverseRecOn with
  | nil => rfl
  | append_singleton acts a ih => rw [after_concat, values_act, ih, pushedSince_concat]

/-! ## Answers -/

/-- For an attribute the cache answers with these values. -/
structure Answers (c : ValueCache) (name : String) (seen : List String) : Prop where
  values : c.values name = seen
  contains : ∀ value, c.contains name value = true ↔ value ∈ seen

theorem answers_of_values {c : ValueCache} {name : String} {seen : List String}
    (h : c.values name = seen) : c.Answers name seen where
  values := h
  contains value := by rw [ValueCache.contains, h, List.contains_iff_mem]

/-- **A cache answers from its history.** For every attribute it lists the values added since the
last reset of that attribute, in their order and as often as they were added, and it contains these
and no others; and one more act for another attribute leaves the answers as they are. -/
theorem answers_since_reset (acts : List Act) (name : String) :
    (empty.after acts).Answers name (pushedSince name acts) ∧
      ∀ a : Act, a.name ≠ name →
        ((empty.after acts).act a).Answers name (pushedSince name acts) := by
  have hvalues := values_after acts name
  exact ⟨answers_of_values hvalues,
    fun a ha => answers_of_values ((values_act_of_ne ha _).trans hvalues)⟩

/-- Titles before and after a reset, with values of another attribute between them. -/
theorem answers_since_reset_beside_href :
    let acts := [.push "title" "k1", .push "href" "k3", .reset "rel", .reset "title",
      .push "title" "k2", .push "href" "k1", .push "title" "k1", .push "title" "k2"]
    pushedSince "title" acts = ["k2", "k1", "k2"] ∧
      (Act.reset "href").name ≠ "title" ∧
      ((empty.after acts).act (.reset "href")).Answers "title" ["k2", "k1", "k2"] := by
  intro acts
  have hpushed : pushedSince "title" acts = ["k2", "k1", "k2"] := by decide
  have hother : (Act.reset "href").name ≠ "title" := by decide
  exact ⟨hpushed, hother, hpushed ▸ (answers_since_reset acts "title").2 _ hother⟩

end HAtom.ValueCache

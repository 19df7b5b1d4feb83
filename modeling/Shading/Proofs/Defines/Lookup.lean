import Mathlib.Data.List.Induction
import Shading.Defines

/-! What is found under a key: in lists of pairs, and in define sets after they were changed. -/

namespace Shading

/-- The first pair is found under its key, and the other pairs under all other keys. -/
theorem lookup_pair {α : Type} (key first : String) (value : α) (rest : List (String × α)) :
    ((first, value) :: rest).lookup key = if key = first then some value else rest.lookup key := by
  -- A lookup compares the key in front before it looks any further.
  by_cases here : key = first
  · simp [here]
  · have differs : (key == first) = false := by simpa using here
    simp [List.lookup_cons, differs, here]

/-- Removing all pairs of one key leaves the others as they are. -/
theorem lookup_filter_ne {α : Type} {key other : String} (different : other ≠ key)
    (pairs : List (String × α)) :
    (pairs.filter (·.1 != key)).lookup other = pairs.lookup other := by
  induction pairs with
  | nil => rfl
  | cons pair rest ih =>
    rcases pair with ⟨first, value⟩
    by_cases removed : first = key
    · simp [lookup_pair, removed, different, ih]
    · -- What stays in front is found in front.
      simp [lookup_pair, removed, ih]

/-- Where no two pairs have one key, every pair is the one that is found under its key. -/
theorem lookup_eq_some_iff_mem {α : Type} {key : String} {value : α} {pairs : List (String × α)}
    (distinct : (pairs.map (·.1)).Nodup) :
    pairs.lookup key = some value ↔ (key, value) ∈ pairs := by
  -- Along the list, as the look-up goes.
  induction pairs with
  | nil => simp
  | cons pair rest ih =>
    rcases pair with ⟨first, stored⟩
    obtain ⟨absent, distinct⟩ := List.nodup_cons.mp distinct
    by_cases here : key = first
    · -- The key does not occur again behind its pair.
      subst here
      have unpaired : (key, value) ∉ rest := fun member =>
        absent (List.mem_map.mpr ⟨_, member, rfl⟩)
      simp [unpaired, eq_comm]
    · simp [lookup_pair, here, ih distinct]

/-- Pairs of distinct keys are found in any order of them. -/
theorem lookup_reverse {α : Type} {pairs : List (String × α)} (distinct : (pairs.map (·.1)).Nodup)
    (key : String) : pairs.reverse.lookup key = pairs.lookup key := by
  -- Without repeated keys, a lookup finds what is a member, wherever it stands.
  have distinct' : (pairs.reverse.map (·.1)).Nodup := by
    rw [List.map_reverse]
    exact List.pairwise_reverse.mpr (distinct.imp Ne.symm)
  ext value
  rw [lookup_eq_some_iff_mem distinct, lookup_eq_some_iff_mem distinct', List.mem_reverse]

namespace Defines

variable (defines : Defines) (key value other : String)

/-- Placing a value changes what is found under its key, and nothing else. -/
theorem lookup_place (entries : List (String × String)) :
    (place key value entries).lookup other =
      if other = key then some value else entries.lookup other := by
  -- The entry goes in front of the first larger key, over its own key, or further on.
  induction entries with
  | nil => simp [place]
  | cons entry rest ih =>
    rcases entry with ⟨first, stored⟩
    unfold place
    split
    · exact lookup_pair other key value _
    · split
      · -- The pair takes the place of the one that had the key.
        rename_i same
        obtain rfl : key = first := same
        by_cases here : other = key <;> simp [lookup_pair, here]
      · rename_i differs
        by_cases here : other = first
        · simp [here, Ne.symm differs]
        · simp [lookup_pair, here, ih]

/-- An inserted value is found under its key, and all other keys are as before. -/
theorem get?_insert :
    (defines.insert key value).2.get? other =
      if other = key then some value else defines.get? other :=
  -- The entries of the set are those with the new one in its place.
  lookup_place key value other defines.entries

/-- Nothing is found under an erased key, and all other keys are as before. -/
theorem get?_erase :
    (defines.erase key).2.get? other = if other = key then none else defines.get? other := by
  -- Erasing drops the entries of its key, so nothing is left to be found under it.
  unfold get? erase
  split
  · rename_i same
    rw [List.lookup_eq_none_iff]
    intro entry member
    have kept : entry.1 ≠ key := by simpa using (List.mem_filter.mp member).2
    simpa [same] using kept.symm
  · rename_i differs
    exact lookup_filter_ne differs defines.entries

/-- The last value of a key counts where a set is made from pairs. -/
theorem get?_ofList (pairs : List (String × String)) :
    (ofList pairs).get? key = pairs.reverse.lookup key := by
  -- From the end of the pairs to their front: the last one decides, or says nothing of the key.
  induction pairs using List.reverseRecOn with
  | nil => rfl
  | append_singleton pairs pair ih =>
    rcases pair with ⟨last, value⟩
    have made : ofList (pairs ++ [(last, value)]) = ((ofList pairs).insert last value).2 := by
      simp [ofList]
    rw [made, get?_insert, ih, List.reverse_append]
    exact (lookup_pair key last value _).symm

/-- No two entries of a set have one key. -/
theorem nodup_keys : (defines.entries.map (·.1)).Nodup := by
  -- Keys that are in strict order cannot repeat.
  rw [List.Nodup, List.pairwise_map]
  refine defines.sorted.imp ?_
  intro a b less same
  exact String.lt_irrefl b.1 (same ▸ less)

/-- The entries of a set are its keys with their values. -/
theorem mem_entries_iff : (key, value) ∈ defines.entries ↔ defines.get? key = some value :=
  -- The keys of a set are distinct, so each entry is the one that is found under its key.
  (lookup_eq_some_iff_mem defines.nodup_keys).symm

end Defines

end Shading

import Shading.Defines

/-! A define set is determined by the values of its keys. -/

namespace Shading.Defines

/-- A key in front of all keys of a list has no value there. -/
theorem lookup_eq_none {key : String} {entries : List (String × String)}
    (before : ∀ entry ∈ entries, key < entry.1) : entries.lookup key = none := by
  refine List.lookup_eq_none_iff.mpr fun entry member => ?_
  -- A key that stands in front of another one is not the same.
  have differs : key ≠ entry.1 := fun same => String.lt_irrefl _ (same ▸ before entry member)
  simpa using differs

/-- The first key of a sorted list does not stand in front of the keys of a list with the same values. -/
theorem not_lt_of_same {key value other otherValue : String} {entries others : List (String × String)}
    (sorted : ((other, otherValue) :: others).Pairwise (fun a b => a.1 < b.1))
    (same : ∀ k, ((key, value) :: entries).lookup k = ((other, otherValue) :: others).lookup k) :
    ¬key < other := by
  -- A smaller key would be in front of all keys of the sorted list, and so in none of its entries.
  intro less
  have absent : ((other, otherValue) :: others).lookup key = none := by
    refine lookup_eq_none fun entry member => ?_
    rcases List.mem_cons.mp member with rfl | later
    · exact less
    · exact String.lt_trans less ((List.pairwise_cons.mp sorted).1 entry later)
  have here := same key
  simp [absent] at here

/-- Sorted lists with the same values under all keys are the same. -/
theorem entries_ext {entries others : List (String × String)}
    (sorted : entries.Pairwise (fun a b => a.1 < b.1))
    (sorted' : others.Pairwise (fun a b => a.1 < b.1))
    (same : ∀ key, entries.lookup key = others.lookup key) : entries = others := by
  -- Both lists have their smallest key in front, so equal lookups give equal entries in front.
  induction entries generalizing others with
  | nil =>
    cases others with
    | nil => rfl
    | cons other others =>
      -- The first key has a value in one list only.
      obtain ⟨key, value⟩ := other
      simpa using same key
  | cons entry entries ih =>
    obtain ⟨key, value⟩ := entry
    cases others with
    | nil => simpa using same key
    | cons other others =>
      obtain ⟨key', value'⟩ := other
      have notLess := not_lt_of_same sorted' same
      have notGreater := not_lt_of_same sorted fun k => (same k).symm
      obtain rfl : key = key' := by grind
      obtain rfl : value = value' := by simpa using same key
      obtain ⟨before, within⟩ := List.pairwise_cons.mp sorted
      obtain ⟨before', within'⟩ := List.pairwise_cons.mp sorted'
      refine congrArg _ (ih within within' fun k => ?_)
      by_cases equal : k = key
      · -- Behind its entry, the first key has no value any more.
        subst equal
        rw [lookup_eq_none before, lookup_eq_none before']
      · have differs : (k == key) = false := by simpa using equal
        simpa [List.lookup_cons, differs] using same k

/-- Define sets with the same values under all keys are the same. -/
theorem ext_get? {a b : Defines} (same : ∀ key, a.get? key = b.get? key) : a = b := by
  -- A set is its entries, whose order carries no information.
  obtain ⟨entries, sorted⟩ := a
  obtain ⟨others, sorted'⟩ := b
  obtain rfl := entries_ext sorted sorted' same
  rfl

end Shading.Defines

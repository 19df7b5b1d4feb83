import Shading.Defines

/-! The order of define sets: it is total, and only a set and itself are equal in it. -/

namespace Shading.Defines

/-- Entries are compared by their keys, and by their values when they have the same key. -/
def compareEntry : String × String → String × String → Ordering :=
  compareLex (compareOn Prod.fst) (compareOn Prod.snd)

instance : Std.TransCmp compareEntry := by
  unfold compareEntry
  infer_instance

instance : Std.LawfulEqCmp compareEntry where
  eq_of_compare := by
    intro a b equal
    obtain ⟨keys, values⟩ := compareLex_eq_eq.mp equal
    exact Prod.ext (Std.LawfulEqCmp.eq_of_compare keys) (Std.LawfulEqCmp.eq_of_compare values)

/-- Lists of entries are compared like words in a dictionary. -/
theorem compareEntries_eq (a b : List (String × String)) :
    compareEntries a b = List.compareLex compareEntry a b := by
  induction a generalizing b with
  | nil => cases b <;> rfl
  | cons entry rest ih =>
    cases b with
    | nil => rfl
    | cons entry' rest' =>
      -- The first entries decide, in their keys or in their values, or leave it to the others.
      rw [List.compareLex_cons_cons, ← ih, compareEntries, compareEntry, compareLex]
      exact (Ordering.then_assoc ..).symm

/-- Sets are compared by their entries. -/
theorem compare_eq (a b : Defines) :
    a.compare b = List.compareLex compareEntry a.entries b.entries :=
  -- The comparison of entries is the lexicographic one written out.
  compareEntries_eq a.entries b.entries

instance : Std.TransCmp compare where
  eq_swap := by
    intro a b
    rw [compare_eq, compare_eq]
    exact Std.OrientedCmp.eq_swap
  isLE_trans := by
    intro a b c first second
    rw [compare_eq] at *
    exact Std.TransCmp.isLE_trans first second

instance : Std.LawfulEqCmp compare where
  eq_of_compare := by
    intro a b equal
    rw [compare_eq] at equal
    -- Sets with the same entries are the same.
    obtain ⟨entries, sorted⟩ := a
    obtain rfl : entries = b.entries := Std.LawfulEqCmp.eq_of_compare equal
    rfl

end Shading.Defines

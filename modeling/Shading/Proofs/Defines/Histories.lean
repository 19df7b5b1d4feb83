import Shading.Config
import Shading.Proofs.Defines.Canonical
import Shading.Proofs.Defines.Lookup
import Shading.Proofs.Defines.Order

/-! Histories of define sets: however a set came about, only the last values of its keys count. -/

namespace Shading.Defines

/-- What a define set is started from. -/
inductive Start
  | empty
  | list (pairs : List (String × String))
  /-- The pairs of a hash map, in whatever order they come; no two of them have one key. -/
  | map (pairs : List (String × String)) (distinct : (pairs.map (·.1)).Nodup)

/-- A change of a define set. -/
inductive Edit
  | insert (key value : String)
  | define (key : String)
  | erase (key : String)

namespace Start

/-- The set that is started with. -/
def defines : Start → Defines
  | empty => .empty
  | list pairs | map pairs _ => .ofList pairs

/-- The value that a key is started with: the last one of a list, and the only one of a map. -/
def value? (key : String) : Start → Option String
  | empty => none
  | list pairs => pairs.reverse.lookup key
  | map pairs _ => pairs.lookup key

/-- A set is started with these values. -/
theorem get?_defines (start : Start) (key : String) :
    start.defines.get? key = start.value? key := by
  -- In a list the last pair of a key counts, and a map has one pair for each key.
  cases start with
  | empty => rfl
  | list pairs => exact get?_ofList key pairs
  | map pairs distinct => exact (get?_ofList key pairs).trans (lookup_reverse distinct key)

end Start

namespace Edit

/-- The only key whose value an edit can change. -/
def key : Edit → String
  | insert key _ | define key | erase key => key

/-- The value that an edit leaves under its key. -/
def value? : Edit → Option String
  | insert _ value => some value
  | define _ => some ""
  | erase _ => none

/-- What an edit answers, and the set after it; a plain define answers nothing. -/
def apply (defines : Defines) : Edit → Option String × Defines
  | insert key value => defines.insert key value
  | define key => (none, defines.define key)
  | erase key => defines.erase key

/-- An edit changes the value of its own key, and no other. -/
theorem get?_apply (edit : Edit) (defines : Defines) (key : String) :
    (edit.apply defines).2.get? key = if key = edit.key then edit.value? else defines.get? key := by
  -- A define is an insertion of the empty text, so two laws cover the three edits.
  cases edit with
  | insert changed value => exact get?_insert defines changed value key
  | define changed => exact get?_insert defines changed "" key
  | erase changed => exact get?_erase defines changed key

end Edit

/-- How a define set came about. -/
structure History where
  start : Start
  edits : List Edit := []

namespace History

/-- The set at the end of a history. -/
def defines (history : History) : Defines :=
  history.edits.foldl (fun defines edit => (edit.apply defines).2) history.start.defines

/-- The value that was written last under a key, unless the key was erased since. -/
def value? (history : History) (key : String) : Option String :=
  match history.edits.reverse.find? (·.key = key) with
  | some edit => edit.value?
  | none => history.start.value? key

variable {history : History} {start : Start} {edits : List Edit} {key : String}

/-- The last edit of a key decides its value, whatever came before. -/
theorem value?_concat (edit : Edit) :
    value? ⟨start, edits ++ [edit]⟩ key =
      if key = edit.key then edit.value? else value? ⟨start, edits⟩ key := by
  -- From the end of the edits, the new one is the first that is asked.
  by_cases same : edit.key = key
  · simp [value?, same]
  · simp [value?, same, Ne.symm same]

/-- A set holds the last values of its keys. -/
theorem get?_defines (history : History) (key : String) :
    history.defines.get? key = history.value? key := by
  obtain ⟨start, edits⟩ := history
  -- From the last edit to the first one: each decides about its own key.
  induction edits using List.reverseRecOn with
  | nil => exact start.get?_defines key
  | append_singleton edits edit ih =>
    have last : defines ⟨start, edits ++ [edit]⟩ = (edit.apply (defines ⟨start, edits⟩)).2 := by
      simp [defines]
    rw [last, edit.get?_apply, value?_concat, ih]

end History

/-- The code points of a text. -/
def codePoints (text : String) : List Nat :=
  text.toList.map Char.toNat

/-- Texts are ordered by their code points. -/
theorem codePoints_lt {a b : String} (less : a < b) : codePoints a < codePoints b := by
  unfold codePoints
  rw [String.lt_iff] at less
  generalize a.toList = first at *
  generalize b.toList = second at *
  -- The texts agree up to the place where one of them ends or has the smaller character.
  induction less with
  | nil => exact .nil
  | cons _ ih => exact .cons ih
  | rel smaller => exact .rel smaller

/--
Define sets are canonical: nothing but the values of their keys is left of how they came about.

Sets with the same values are the same, compare as equal, and are displayed and serialized alike.
Keys are held in strictly increasing order of their code points, each with its last value.
An edit answers with the last value of its key, and changes no other key.
Sets are totally ordered, and only a set and itself are equal in this order.
-/
theorem canonical_of_history (a b : History) :
    ((∀ key, a.defines.get? key = b.defines.get? key) →
      a.defines = b.defines ∧ a.defines.compare b.defines = .eq ∧
        a.defines.text = b.defines.text ∧
        a.defines.toJson.compact = b.defines.toJson.compact) ∧
    (a.defines = b.defines → ∀ key, a.defines.get? key = b.defines.get? key) ∧
    a.defines.entries.Pairwise (fun x y => codePoints x.1 < codePoints y.1) ∧
    (∀ key value, (key, value) ∈ a.defines.entries ↔ a.value? key = some value) ∧
    (∀ key value, ((Edit.insert key value).apply a.defines).1 = a.value? key ∧
      ((Edit.erase key).apply a.defines).1 = a.value? key) ∧
    (∀ (edit : Edit) key, key ≠ edit.key →
      (edit.apply a.defines).2.get? key = a.defines.get? key) ∧
    (∀ x y : Defines, x.compare y = (y.compare x).swap) ∧
    (∀ x y z : Defines, (x.compare y).isLE → (y.compare z).isLE → (x.compare z).isLE) ∧
    ∀ x y : Defines, x.compare y = .eq ↔ x = y := by
  refine ⟨?same, ?values, ?sorted, ?entries, ?answers, ?frame, fun _ _ => Std.OrientedCmp.eq_swap,
    fun _ _ _ => Std.TransCmp.isLE_trans, fun _ _ => Std.LawfulEqCmp.compare_eq_iff_eq⟩
  case same =>
    intro same
    -- Equal sets are alike in all that is computed from them.
    rw [ext_get? same]
    exact ⟨rfl, Std.ReflCmp.compare_self, rfl, rfl⟩
  case values =>
    intro same key
    rw [same]
  case sorted => exact a.defines.sorted.imp codePoints_lt
  case entries =>
    intro key value
    rw [mem_entries_iff, a.get?_defines]
  case answers =>
    intro key value
    -- Both answer what is found under the key before the edit.
    have last := a.get?_defines key
    exact ⟨last, last⟩
  case frame =>
    intro edit key other
    rw [edit.get?_apply, if_neg other]

end Shading.Defines

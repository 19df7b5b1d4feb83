/-! Define sets, which choose the parts of a source that count. -/

namespace Shading

/-- Keys with their values, kept in the order of the keys so that equal sets are held alike. -/
structure Defines where
  entries : List (String × String) := []
  sorted : entries.Pairwise (fun a b => a.1 < b.1) := by exact .nil
deriving DecidableEq

namespace Defines

/-- The set without keys. -/
def empty : Defines := {}

instance : Inhabited Defines := ⟨empty⟩

/-- Puts a value for a key in its place, over an earlier value. -/
def place (key value : String) : List (String × String) → List (String × String)
  | [] => [(key, value)]
  | entry :: rest =>
    -- The entries stay in the order of their keys, so a smaller key has no entry further on.
    if key < entry.1 then (key, value) :: entry :: rest
    else if key = entry.1 then (key, value) :: rest
    else entry :: place key value rest

/-- Placing adds one entry at most. -/
theorem mem_place {key value : String} {entries : List (String × String)} {e : String × String}
    (member : e ∈ place key value entries) : e = (key, value) ∨ e ∈ entries := by
  -- Each case either keeps an entry or puts the new one in front of what is left.
  induction entries with
  | nil => simpa [place] using member
  | cons entry rest ih =>
    simp only [place] at member
    split at member
    · simpa using member
    · split at member
      · rcases List.mem_cons.mp member with same | later
        · exact .inl same
        · exact .inr (by simp [later])
      · rcases List.mem_cons.mp member with same | later
        · exact .inr (by simp [same])
        · -- Further on, the entry was there before or is the one that is put in.
          rcases ih later with same | kept
          · exact .inl same
          · exact .inr (by simp [kept])

/-- Placing keeps the order of the keys. -/
theorem sorted_place (key value : String) {entries : List (String × String)}
    (sorted : entries.Pairwise (fun a b => a.1 < b.1)) :
    (place key value entries).Pairwise (fun a b => a.1 < b.1) := by
  -- The new entry stands before the first larger key and after all smaller ones.
  induction entries with
  | nil => simp [place]
  | cons entry rest ih =>
    obtain ⟨before, within⟩ := List.pairwise_cons.mp sorted
    simp only [place]
    split
    · rename_i smaller
      refine List.pairwise_cons.mpr ⟨fun e member => ?_, sorted⟩
      rcases List.mem_cons.mp member with rfl | later
      · exact smaller
      · exact String.lt_trans smaller (before e later)
    · rename_i notSmaller
      split
      · rename_i same
        exact List.pairwise_cons.mpr ⟨fun e member => same ▸ before e member, within⟩
      · rename_i different
        refine List.pairwise_cons.mpr ⟨fun e member => ?_, ih within⟩
        -- What is placed further on is the new entry or one that was larger before.
        rcases mem_place member with rfl | later
        · grind
        · exact before e later

/-- The value of a key. -/
def get? (defines : Defines) (key : String) : Option String :=
  defines.entries.lookup key

/-- A key is defined when it has a value, whichever it is. -/
def isDefined (defines : Defines) (key : String) : Bool :=
  (defines.get? key).isSome

/-- Gives a key a value, and answers with the value that is replaced by it. -/
def insert (defines : Defines) (key value : String) : Option String × Defines :=
  (defines.get? key, ⟨place key value defines.entries, sorted_place key value defines.sorted⟩)

/-- Gives a key an empty value. -/
def define (defines : Defines) (key : String) : Defines :=
  (defines.insert key "").2

/-- Takes a key out of the set, and answers with the value that it had. -/
def erase (defines : Defines) (key : String) : Option String × Defines :=
  (defines.get? key, ⟨defines.entries.filter (·.1 != key), defines.sorted.filter _⟩)

/-- The set of some keys and values, where the last value of a key counts. -/
def ofList (pairs : List (String × String)) : Defines :=
  pairs.foldl (fun defines pair => (defines.insert pair.1 pair.2).2) empty

/-- The number of keys. -/
def size (defines : Defines) : Nat :=
  defines.entries.length

/-- A set without keys. -/
def isEmpty (defines : Defines) : Bool :=
  defines.entries.isEmpty

/-- The text of one define, whose value is left out when it is empty. -/
def entryText (entry : String × String) : String :=
  if entry.2 = "" then entry.1 else entry.1 ++ "=" ++ entry.2

/-- The text of a set in messages. -/
def text (defines : Defines) : String :=
  "\x7b" ++ ", ".intercalate (defines.entries.map entryText) ++ "\x7d"

/-- The order of two texts by their code points. -/
def compareTexts (a b : String) : Ordering :=
  if a < b then .lt else if a = b then .eq else .gt

/-- The order of two lists of entries, decided by the first difference. -/
def compareEntries : List (String × String) → List (String × String) → Ordering
  | [], [] => .eq
  | [], _ :: _ => .lt
  | _ :: _, [] => .gt
  | a :: rest, b :: rest' =>
    (compareTexts a.1 b.1).then ((compareTexts a.2 b.2).then (compareEntries rest rest'))

/-- The order of define sets. -/
def compare (a b : Defines) : Ordering :=
  compareEntries a.entries b.entries

end Defines

end Shading

import Shading.Proofs.Json.Literals

/-! Compact texts are read as the values that they were written from. -/

namespace Shading.Json

variable {rest : List Char}

/-- A value is read back from its characters within two steps for each of them. -/
def ReadsBack (json : Json) : Prop :=
  ∀ ⦃steps rest⦄, 2 * json.characters.length ≤ steps → EndsNumber rest →
    value steps (json.characters ++ rest) = some (json, rest)

/-- Characters that start a value neither are blank nor close an array. -/
def StartsValue (c : Char) : Prop :=
  isSpace c = false ∧ c ≠ ']'

/-- Nothing is left out in front of a character that is not blank. -/
theorem skipSpace_cons {c : Char} (solid : isSpace c = false) :
    skipSpace (c :: rest) = c :: rest := by
  -- The first character already ends the run of blanks.
  simp [skipSpace, solid]

/-- What separates or closes the parts of a value ends a number. -/
theorem endsNumber_cons {c : Char} (mark : c = ',' ∨ c = ']' ∨ c = '\x7d') :
    EndsNumber (c :: rest) := by
  -- None of the three marks is a digit, a point or the letter of a power.
  rintro _ ⟨⟩
  rcases mark with rfl | rfl | rfl <;> decide

/-- Numbers start with digits. -/
theorem startsValue_of_isDigit {c : Char} (isDigit : c.isDigit = true) : StartsValue c := by
  -- A digit is neither a blank nor the bracket that closes an array.
  have other : ∀ d : Char, d.isDigit = false → c ≠ d := by
    intro d noDigit same
    rw [same, noDigit] at isDigit
    exact Bool.noConfusion isDigit
  refine ⟨?_, other _ rfl⟩
  have spaces : c ≠ ' ' ∧ c ≠ '\t' ∧ c ≠ '\n' ∧ c ≠ '\r' :=
    ⟨other _ rfl, other _ rfl, other _ rfl, other _ rfl⟩
  simp [isSpace, spaces]

/-- What starts with a digit is read as a number. -/
theorem value_of_isDigit {steps : Nat} {c : Char} (isDigit : c.isDigit = true) :
    value (steps + 1) (c :: rest) = unsigned [] (c :: rest) := by
  rw [value, skipSpace_cons (startsValue_of_isDigit isDigit).1]
  -- All other values start with something that is not a digit.
  split
  case h_8 => rfl
  all_goals
    rename_i first
    obtain ⟨rfl, -⟩ := List.cons.inj first
    cases isDigit

/-- The three words of JSON are read back. -/
theorem word_readsBack {json : Json} (word : json = .null ∨ ∃ value, json = .bool value) :
    ReadsBack json := by
  -- There are three texts, and each is matched as a whole.
  intro steps rest enough _
  have present : json.characters.length ≠ 0 := by
    obtain rfl | ⟨_ | _, rfl⟩ := word <;> decide
  obtain ⟨steps, rfl⟩ := Nat.exists_eq_add_one_of_ne_zero (show steps ≠ 0 by omega)
  obtain rfl | ⟨_ | _, rfl⟩ := word <;> rfl

/-- There is a first digit of every number. -/
theorem exists_first_digit (n : Nat) :
    ∃ c more, Nat.toDigits 10 n = c :: more ∧ c.isDigit = true := by
  -- Zero is written with a digit as well, so that the list is never empty.
  obtain ⟨c, more, written⟩ := List.exists_cons_of_ne_nil (@Nat.toDigits_ne_nil n 10)
  have first : c ∈ Nat.toDigits 10 n := by simp [written]
  exact ⟨c, more, written, Nat.isDigit_of_mem_toDigits (by decide) (by decide) first⟩

/-- Natural numbers are read back. -/
theorem natural_readsBack (n : Nat) : ReadsBack (.natural n) := by
  -- The first digit sends the reader to numbers, and the digits end where the number does.
  intro steps rest enough ends
  obtain ⟨c, more, written, isDigit⟩ := exists_first_digit n
  have chars : (natural n).characters = Nat.toDigits 10 n := rfl
  rw [chars, written] at enough
  obtain ⟨steps, rfl⟩ := Nat.exists_eq_succ_of_ne_zero (show steps ≠ 0 by grind)
  rw [chars, written, List.cons_append, Nat.succ_eq_add_one, value_of_isDigit isDigit,
    ← List.cons_append, ← written, unsigned_toDigits n ends]

/-- Strings without halves of characters are read back. -/
theorem ofText_readsBack (text : String) : ReadsBack (.ofText text) := by
  -- The quotation mark sends the reader to strings, where each unit of the text is read back.
  intro steps rest enough _
  have chars : (ofText text).characters =
      '"' :: ((unitsOf text).flatMap escapeUnit ++ ['"']) := rfl
  rw [chars] at enough ⊢
  obtain ⟨steps, rfl⟩ := Nat.exists_eq_succ_of_ne_zero (show steps ≠ 0 by grind)
  have quoted : skipSpace ('"' :: ((unitsOf text).flatMap escapeUnit ++ '"' :: rest)) =
      '"' :: ((unitsOf text).flatMap escapeUnit ++ '"' :: rest) := skipSpace_cons rfl
  simp only [List.cons_append, List.append_assoc, List.nil_append, value, quoted,
    units_unitsOf]
  rfl

/-- Items that are read back one by one are read back from their list. -/
theorem items_readBack {list : List Json} (back : ∀ item ∈ list, ReadsBack item)
    (present : list ≠ []) {steps : Nat} (enough : 2 * (itemCharacters list).length ≤ steps) :
    items (steps + 1) (itemCharacters list ++ ']' :: rest) = some (list, rest) := by
  induction list generalizing steps with
  -- The bracket ends the last item.
  | nil => exact absurd rfl present
  | cons item more ih =>
    have first := back item (by simp)
    cases more with
    | nil =>
      have ends : EndsNumber (']' :: rest) := endsNumber_cons (by simp)
      have close : skipSpace (']' :: rest) = ']' :: rest := skipSpace_cons rfl
      have written : itemCharacters [item] = item.characters := rfl
      rw [written] at enough ⊢
      simp only [items, first enough ends, close, Option.bind_eq_bind, Option.bind_some]
      rfl
    -- A comma ends all others, and takes a step that is left for what is behind it.
    | cons next more =>
      let tail := itemCharacters (next :: more) ++ ']' :: rest
      have ends : EndsNumber (',' :: tail) := endsNumber_cons (by simp)
      have comma : skipSpace (',' :: tail) = ',' :: tail := skipSpace_cons rfl
      have written : itemCharacters (item :: next :: more) =
          item.characters ++ ',' :: itemCharacters (next :: more) := rfl
      simp only [written, List.length_append, List.length_cons] at enough
      obtain ⟨steps, rfl⟩ := Nat.exists_eq_add_one_of_ne_zero (show steps ≠ 0 by omega)
      have later : items (steps + 1) tail = some (next :: more, rest) :=
        ih (fun item member => back item (by simp [member])) (by simp) (by omega)
      rw [written, List.append_assoc, List.cons_append, items, first (by omega) ends]
      simp only [comma, later, Option.bind_eq_bind, Option.bind_some]
      rfl

/-- An array is read by its items when it has any. -/
theorem value_bracket {steps : Nat} {c : Char} (starts : StartsValue c) :
    value (steps + 1) ('[' :: c :: rest) =
      (items steps (c :: rest)).map fun (items, rest) => (.array items, rest) := by
  obtain ⟨solid, noClose⟩ := starts
  have opened : skipSpace ('[' :: c :: rest) = '[' :: c :: rest := skipSpace_cons rfl
  rw [value, opened]
  simp only [skipSpace_cons solid]
  -- What starts a value does not close the array.
  split
  · rename_i close
    exact absurd (List.cons.inj close).1 noClose
  · cases items steps (c :: rest) <;> rfl

/-- An array of items that are read back is read back. -/
theorem array_readsBack {list : List Json} (back : ∀ item ∈ list, ReadsBack item)
    (starts : ∀ item ∈ list, ∃ c more, item.characters = c :: more ∧ StartsValue c) :
    ReadsBack (.array list) := by
  intro steps rest enough _
  have written : (array list).characters = '[' :: (itemCharacters list ++ [']']) := rfl
  simp only [written, List.length_cons, List.length_append] at enough
  -- One step is for the array and one for its first item.
  obtain ⟨steps, rfl⟩ := Nat.exists_eq_add_of_le' (show 2 ≤ steps by omega)
  rw [written, List.cons_append, List.append_assoc, List.cons_append, List.nil_append]
  cases list with
  | nil => rfl
  | cons item more =>
    have inside : items (steps + 1) (itemCharacters (item :: more) ++ ']' :: rest) =
        some (item :: more, rest) := items_readBack back (by simp) (by omega)
    obtain ⟨c, behind, first, starts⟩ := starts item (by simp)
    -- The items start with the first of them.
    have front : ∃ behind, itemCharacters (item :: more) ++ ']' :: rest = c :: behind := by
      cases more <;> simp [itemCharacters, first]
    obtain ⟨behind, front⟩ := front
    rw [front] at inside ⊢
    rw [value_bracket starts, inside]
    rfl

/-- An object is read by its members when it has any. -/
theorem value_brace {steps : Nat} :
    value (steps + 1) ('\x7b' :: '"' :: rest) =
      (members steps ('"' :: rest)).map fun (members, rest) => (.object members, rest) := by
  -- The quotation mark is no closing brace, so that the object is not the empty one.
  have quote : skipSpace ('"' :: rest) = '"' :: rest := skipSpace_cons rfl
  have opened : skipSpace ('\x7b' :: '"' :: rest) = '\x7b' :: '"' :: rest := skipSpace_cons rfl
  rw [value, opened]
  simp only [quote]
  split
  · rename_i close
    cases close
  · cases members steps ('"' :: rest) <;> rfl

/-- The last member of an object is read with the brace behind it. -/
theorem members_last {key : String} {steps : Nat} {cs : List Char} {first : Json}
    (read : value steps cs = some (first, '\x7d' :: rest)) :
    members (steps + 1) (quoteUnits (unitsOf key) ++ ':' :: cs) =
      some ([(unitsOf key, first)], rest) := by
  -- No blanks are written, so that leaving them out changes nothing at each of the marks.
  have quote : ∀ cs, skipSpace ('"' :: cs) = '"' :: cs := fun _ => skipSpace_cons rfl
  have colon : skipSpace (':' :: cs) = ':' :: cs := skipSpace_cons rfl
  have close : skipSpace ('\x7d' :: rest) = '\x7d' :: rest := skipSpace_cons rfl
  simp only [quoteUnits, List.cons_append, List.append_assoc, List.nil_append, members, quote,
    units_unitsOf, Option.bind_eq_bind, Option.bind_some]
  rw [colon]
  simp only [read, close, Option.bind_some]
  rfl

/-- A member of an object is read with the comma behind it and all that follow. -/
theorem members_more {key : String} {steps : Nat} {cs behind : List Char} {first : Json}
    {more : List (List TextUnit × Json)} (read : value steps cs = some (first, ',' :: behind))
    (later : members steps behind = some (more, rest)) :
    members (steps + 1) (quoteUnits (unitsOf key) ++ ':' :: cs) =
      some ((unitsOf key, first) :: more, rest) := by
  -- The comma sends the reader to the next member, which the second assumption is about.
  have quote : ∀ cs, skipSpace ('"' :: cs) = '"' :: cs := fun _ => skipSpace_cons rfl
  have colon : skipSpace (':' :: cs) = ':' :: cs := skipSpace_cons rfl
  have comma : skipSpace (',' :: behind) = ',' :: behind := skipSpace_cons rfl
  simp only [quoteUnits, List.cons_append, List.append_assoc, List.nil_append, members, quote,
    units_unitsOf, Option.bind_eq_bind, Option.bind_some]
  rw [colon]
  simp only [read, comma, later, Option.bind_some]
  rfl

/-- The members of a record, as an object has them. -/
abbrev keyed (list : List (String × Json)) : List (List TextUnit × Json) :=
  list.map fun (key, value) => (unitsOf key, value)

/-- Members whose values are read back one by one are read back from their list. -/
theorem members_readBack {list : List (String × Json)}
    (back : ∀ entry ∈ list, ReadsBack entry.2) (present : list ≠ []) {steps : Nat}
    (enough : 2 * (memberCharacters (keyed list)).length ≤ steps) :
    members (steps + 1) (memberCharacters (keyed list) ++ '\x7d' :: rest) =
      some (keyed list, rest) := by
  -- Along the list; the steps are twice the characters, of which each member has some.
  induction list generalizing steps with
  -- The brace ends the last member, and a comma all others.
  | nil => exact absurd rfl present
  | cons entry more ih =>
    rcases entry with ⟨key, json⟩
    have first : ReadsBack json := back (key, json) (by simp)
    cases more with
    | nil =>
      have ends : EndsNumber ('\x7d' :: rest) := endsNumber_cons (by simp)
      have written : memberCharacters (keyed [(key, json)]) =
          quoteUnits (unitsOf key) ++ ':' :: json.characters := rfl
      simp only [written, List.length_append, List.length_cons] at enough
      rw [written, List.append_assoc, List.cons_append]
      exact members_last (first (by omega) ends)
    | cons next more =>
      let tail := memberCharacters (keyed (next :: more)) ++ '\x7d' :: rest
      have ends : EndsNumber (',' :: tail) := endsNumber_cons (by simp)
      have written : memberCharacters (keyed ((key, json) :: next :: more)) =
          quoteUnits (unitsOf key) ++ ':' :: json.characters ++
            ',' :: memberCharacters (keyed (next :: more)) := rfl
      simp only [written, List.length_append, List.length_cons] at enough
      obtain ⟨steps, rfl⟩ := Nat.exists_eq_add_one_of_ne_zero (show steps ≠ 0 by omega)
      have later : members (steps + 1) tail = some (keyed (next :: more), rest) :=
        ih (fun entry member => back entry (by simp [member])) (by simp) (by omega)
      rw [written, List.append_assoc, List.append_assoc, List.cons_append, List.cons_append]
      -- The member in front is passed with its comma, and the others are a list again.
      exact members_more (first (by omega) ends) later

/-- An object whose values are read back is read back. -/
theorem record_readsBack {list : List (String × Json)} (back : ∀ entry ∈ list, ReadsBack entry.2) :
    ReadsBack (.record list) := by
  intro steps rest enough _
  have written : (record list).characters =
      '\x7b' :: (memberCharacters (keyed list) ++ ['\x7d']) := rfl
  simp only [written, List.length_cons, List.length_append] at enough
  -- One step is for the object and one for its first member.
  obtain ⟨steps, rfl⟩ := Nat.exists_eq_add_of_le' (show 2 ≤ steps by omega)
  rw [written, List.cons_append, List.append_assoc, List.cons_append, List.nil_append]
  cases list with
  | nil => rfl
  | cons entry more =>
    have inside : members (steps + 1) (memberCharacters (keyed (entry :: more)) ++ '\x7d' :: rest) =
        some (keyed (entry :: more), rest) := members_readBack back (by simp) (by omega)
    -- Members start with the quotation mark of a key.
    have front : ∃ behind,
        memberCharacters (keyed (entry :: more)) ++ '\x7d' :: rest = '"' :: behind := by
      cases more <;> simp [memberCharacters, quoteUnits]
    obtain ⟨behind, front⟩ := front
    rw [front] at inside ⊢
    rw [value_brace, inside]
    rfl

/-- Values without halves of characters and without numbers other than natural ones. -/
inductive IsPlain : Json → Prop
  | null : IsPlain .null
  | bool (value : Bool) : IsPlain (.bool value)
  | natural (value : Nat) : IsPlain (.natural value)
  | ofText (text : String) : IsPlain (.ofText text)
  | array {items : List Json} : (∀ item ∈ items, IsPlain item) → IsPlain (.array items)
  | record {members : List (String × Json)} :
    (∀ entry ∈ members, IsPlain entry.2) → IsPlain (.record members)

/-- Plain values start as values do. -/
theorem IsPlain.starts {json : Json} (plain : json.IsPlain) :
    ∃ c more, json.characters = c :: more ∧ StartsValue c := by
  -- All but the numbers start with a character of their own kind.
  cases plain with
  | natural value =>
    obtain ⟨c, more, written, isDigit⟩ := exists_first_digit value
    exact ⟨c, more, written, startsValue_of_isDigit isDigit⟩
  | bool value => cases value <;> exact ⟨_, _, rfl, by decide, by decide⟩
  | null | ofText | array | record => exact ⟨_, _, rfl, by decide, by decide⟩

/-- Plain values are read back. -/
theorem IsPlain.readsBack {json : Json} (plain : json.IsPlain) : ReadsBack json := by
  -- Along the value, with one lemma for each kind of value.
  induction plain with
  | null => exact word_readsBack (.inl rfl)
  | bool value => exact word_readsBack (.inr ⟨value, rfl⟩)
  | natural value => exact natural_readsBack value
  | ofText text => exact ofText_readsBack text
  | array plain back => exact array_readsBack back fun item member => (plain item member).starts
  | record _ back => exact record_readsBack back

/-- Compact texts of plain values are read as these values. -/
theorem parse?_compact {json : Json} (plain : json.IsPlain) : parse? json.compact = some json := by
  -- The whole text is the value with nothing behind it, and the steps are enough for its length.
  have read : value (2 * json.characters.length + 2) json.characters = some (json, []) := by
    rw [← List.append_nil json.characters]
    exact plain.readsBack (by simp) (by simp [EndsNumber])
  rw [parse?, compact, String.toList_ofList, read]
  rfl

end Shading.Json

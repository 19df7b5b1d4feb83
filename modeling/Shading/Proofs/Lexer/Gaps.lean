import Shading.Proofs.Lexer.Spelling

/-! What stands between words: blanks and comments, of which as many as there are. -/

namespace Shading

namespace Cursor

/-- A mark that closes a comment stands somewhere in the characters. -/
def Closes (chars : List Char) : Prop :=
  ['*', '/'] <:+: chars

/-- One blank or one comment, given what follows it. -/
inductive IsGapPart : List Char → List Char → Prop
  | blank {c : Char} {after : List Char} :
    Text.isBlank c = true →
    IsGapPart [c] after
  -- The line feed that ends a comment does not belong to it.
  | lineComment {body after : List Char} :
    '\n' ∉ body →
    (∀ c ∈ after.head?, c = '\n') →
    IsGapPart ('/' :: '/' :: body) after
  -- No closing mark ends earlier than the one at the end.
  | blockComment {body after : List Char} :
    ¬ Closes (body ++ ['*']) →
    IsGapPart ('/' :: '*' :: (body ++ ['*', '/'])) after

/-- Any number of blanks and comments, given what follows them. -/
inductive IsGap : List Char → List Char → Prop
  | none {after : List Char} : IsGap [] after
  | part {part gap after : List Char} :
    IsGapPart part (gap ++ after) →
    IsGap gap after →
    IsGap (part ++ gap) after

/-- A gap that cannot be extended by anything of what follows it. -/
structure IsWholeGap (gap after : List Char) : Prop where
  isGap : IsGap gap after
  whole : ∀ more later, after = more ++ later → IsGap (gap ++ more) later → more = []

variable {line opened : Nat} {c : Char} {gap more body rest after : List Char}

/-- A closing mark starts with the first character or stands behind it. -/
theorem closes_cons : Closes (c :: rest) ↔ (c = '*' ∧ rest.head? = some '/') ∨ Closes rest := by
  -- A mark within a list starts with its head or lies in its tail.
  unfold Closes
  rw [List.infix_cons_iff, List.cons_prefix_cons]
  cases rest with
  | nil => simp
  | cons d rest =>
    rw [List.cons_prefix_cons]
    simp [eq_comm]

/-- Nothing is closed by no characters. -/
theorem not_closes_nil : ¬ Closes [] := by
  -- The mark has characters.
  simp [Closes]

/-- Nothing is closed by the first half of a mark. -/
theorem not_closes_star : ¬ Closes ['*'] := by
  -- The other half would have to follow.
  simp [closes_cons, not_closes_nil]

/-- A closed comment has a first mark that closes it. -/
theorem exists_closing (closes : Closes rest) :
    ∃ body after, rest = body ++ '*' :: '/' :: after ∧ ¬ Closes (body ++ ['*']) := by
  -- Along the characters; the mark at the front is the first one if there is one.
  induction rest with
  | nil => exact absurd closes not_closes_nil
  | cons c rest ih =>
    by_cases here : c = '*' ∧ rest.head? = some '/'
    · obtain ⟨rfl, slash⟩ := here
      obtain ⟨after, rfl⟩ := List.head?_eq_some_iff.mp slash
      exact ⟨[], after, rfl, not_closes_star⟩
    · obtain ⟨body, after, rfl, first⟩ := ih ((closes_cons.mp closes).resolve_left here)
      refine ⟨c :: body, after, rfl, ?_⟩
      rw [List.cons_append, closes_cons]
      rintro (⟨star, slash⟩ | later)
      · -- What follows the first character is the same with the mark and with its first half.
        refine here ⟨star, ?_⟩
        cases body <;> simp_all
      · exact first later

/-- A character of a comment is passed unless a closing mark starts with it. -/
theorem skipGap_inside (inside : ¬ (c = '*' ∧ rest.head? = some '/')) :
    skipGap (.blockComment opened) line (c :: rest) =
      skipGap (.blockComment opened) (lineAfter c line) rest := by
  -- The other branches of the definition are about the closing mark and the end.
  conv => lhs; unfold skipGap
  split <;> simp_all

/-- Passing a character counts its line feed. -/
theorem lineAfter_add_count (c : Char) (line : Nat) (chars : List Char) :
    lineAfter c line + chars.count '\n' = line + (c :: chars).count '\n' := by
  -- Only a line feed starts a new line.
  unfold lineAfter
  rw [List.count_cons]
  split
  · simp_all
    omega
  · simp_all

/-- A comment that is open is skipped up to the first mark that closes it. -/
theorem skipGap_blockComment (first : ¬ Closes (body ++ ['*'])) :
    skipGap (.blockComment opened) line (body ++ '*' :: '/' :: after) =
      skipGap .blanks (line + body.count '\n') after := by
  induction body generalizing line with
  | nil => rfl
  | cons c body ih =>
    rw [List.cons_append, closes_cons, not_or] at first
    -- A star and a slash before the mark would have been the first to close the comment.
    have inside : ¬ (c = '*' ∧ (body ++ '*' :: '/' :: after).head? = some '/') := by
      rintro ⟨star, slash⟩
      refine first.1 ⟨star, ?_⟩
      cases body <;> simp_all
    rw [List.cons_append, skipGap_inside inside, ih first.2, lineAfter_add_count]

/-- A comment that nothing closes is skipped to the end, and remembers where it opened. -/
theorem skipGap_unclosed (unclosed : ¬ Closes body) :
    skipGap (.blockComment opened) line body =
      ⟨some opened, ⟨[], line + body.count '\n'⟩⟩ := by
  -- No character starts a closing mark, so that all of them are passed.
  induction body generalizing line with
  | nil => rfl
  | cons c body ih =>
    rw [closes_cons, not_or] at unclosed
    rw [skipGap_inside unclosed.1, ih unclosed.2, lineAfter_add_count]

/-- A comment in a line is skipped to the end of the line. -/
theorem skipGap_lineComment (oneLine : '\n' ∉ body) (ends : ∀ c ∈ after.head?, c = '\n') :
    skipGap .lineComment line (body ++ after) = skipGap .blanks line after := by
  -- A line comment is passed up to its line feed, which is left to the blanks.
  induction body with
  | nil =>
    cases after with
    | nil => rfl
    | cons c after =>
      obtain rfl : c = '\n' := ends c rfl
      rfl
  | cons c body ih =>
    rw [List.mem_cons, not_or] at oneLine
    conv => lhs; unfold skipGap
    simp [Ne.symm oneLine.1, ih oneLine.2]

/-- A blank is skipped. -/
theorem skipGap_blank (blank : Text.isBlank c = true) :
    skipGap .blanks line (c :: rest) = skipGap .blanks (lineAfter c line) rest := by
  -- A slash is no blank, so that no comment is opened.
  have noSlash : c ≠ '/' := by
    rintro rfl
    exact absurd blank (by decide)
  conv => lhs; unfold skipGap
  split <;> simp_all

/-- A blank or a comment is skipped, and its line feeds are counted. -/
theorem IsGapPart.skip {part : List Char} (isPart : IsGapPart part after) (line : Nat) :
    skipGap .blanks line (part ++ after) = skipGap .blanks (line + part.count '\n') after := by
  -- Each kind of part has its own state of the skipping, which ends with the part.
  cases isPart with
  | @blank c _ isBlank =>
    rw [List.singleton_append, skipGap_blank isBlank]
    exact congrArg (skipGap .blanks · after) (lineAfter_add_count c line [])
  -- The line feed behind the comment is not part of it.
  | lineComment oneLine ends =>
    have opening : ∀ chars, skipGap .blanks line ('/' :: '/' :: chars) =
        skipGap .lineComment line chars := fun _ => rfl
    rw [List.cons_append, List.cons_append, opening, skipGap_lineComment oneLine ends]
    simp [List.count_eq_zero_of_not_mem oneLine]
  | @blockComment body _ first =>
    have opening : ∀ chars, skipGap .blanks line ('/' :: '*' :: chars) =
        skipGap (.blockComment line) line chars := fun _ => rfl
    rw [List.cons_append, List.cons_append, opening, List.append_assoc, List.cons_append,
      List.cons_append, List.nil_append, skipGap_blockComment first]
    simp [List.count_append]

namespace IsGap

/-- A gap is skipped, and its line feeds are counted. -/
theorem skip (isGap : IsGap gap after) (line : Nat) :
    skipGap .blanks line (gap ++ after) = skipGap .blanks (line + gap.count '\n') after := by
  -- Part by part, and each of them adds its own line feeds.
  induction isGap generalizing line with
  | none => rfl
  | part isPart _ ih =>
    rw [List.append_assoc, isPart.skip, ih, List.count_append, Nat.add_assoc]

/-- A gap in front of a word only moves it to a later line. -/
theorem next_eq (isGap : IsGap gap after) (line : Nat) :
    next ⟨gap ++ after, line⟩ = next ⟨after, line + gap.count '\n'⟩ := by
  -- The call starts with the skipping, and then only sees what is behind the gap.
  simp only [next, isGap.skip]

/-- A gap behind a gap belongs to it. -/
theorem append (isGap : IsGap gap (more ++ after)) (isMore : IsGap more after) :
    IsGap (gap ++ more) after := by
  generalize follows : more ++ after = later at isGap
  -- Part after part, up to where the other gap starts.
  induction isGap with
  | none => exact isMore
  | part isPart _ ih =>
    subst follows
    rw [List.append_assoc]
    refine .part ?_ (ih rfl)
    rwa [List.append_assoc]

end IsGap

namespace IsWholeGap

/-- No blank or comment stands behind a whole gap. -/
theorem no_part (more : List Char) (isWhole : IsWholeGap gap (more ++ after))
    (isPart : IsGapPart more after) : False := by
  -- With the part behind it the gap would be longer, and it is as long as gaps go.
  have single : IsGap more after := by
    have nothing : IsGap [] after := .none
    simpa using IsGap.part (by simpa using isPart) nothing
  have empty : more = [] := isWhole.whole more after rfl (isWhole.isGap.append single)
  subst empty
  cases isPart

/-- Behind a whole gap, skipping stops at once unless a comment is opened there. -/
theorem skip_stops (isWhole : IsWholeGap gap after) (noComment : ¬ ['/', '*'] <+: after)
    (line : Nat) : skipGap .blanks line after = ⟨none, ⟨after, line⟩⟩ := by
  have noBlank : ∀ c rest, after = c :: rest → Text.isBlank c = false := by
    rintro c rest rfl
    rw [← Bool.not_eq_true]
    exact fun blank => no_part [c] isWhole (.blank blank)
  have noLineComment : ∀ rest, after ≠ '/' :: '/' :: rest := by
    rintro rest rfl
    -- Up to the end of its line, the rest would be a comment.
    have split : '/' :: '/' :: rest = '/' :: '/' :: rest.takeWhile (· != '\n') ++
        rest.dropWhile (· != '\n') := by simp
    rw [split] at isWhole
    refine no_part _ isWhole (.lineComment ?_ ?_)
    · intro member
      simpa using List.all_eq_true.mp List.all_takeWhile _ member
    · intro c first
      have stops := List.head?_dropWhile_not (· != '\n') rest
      simp only [Option.mem_def.mp first] at stops
      simpa using stops
  -- Skipping goes on for blanks and for the two kinds of comments only.
  unfold skipGap
  split <;> simp_all

end IsWholeGap

/-- A comment that is opened behind a whole gap is never closed. -/
theorem IsWholeGap.not_closes (isWhole : IsWholeGap gap ('/' :: '*' :: rest)) : ¬ Closes rest := by
  -- With its first closing mark the comment would be part of the gap.
  intro closes
  obtain ⟨body, after, rfl, first⟩ := exists_closing closes
  have split : '/' :: '*' :: (body ++ '*' :: '/' :: after) =
      '/' :: '*' :: (body ++ ['*', '/']) ++ after := by simp
  rw [split] at isWhole
  exact no_part _ isWhole (.blockComment first)

end Cursor

end Shading

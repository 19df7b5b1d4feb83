import Shading.Proofs.Lexer.Calls

/-! Lines: everything that a call gives is on the line of the place where it stands. -/

namespace Shading

namespace Cursor

/-- The line that a result names. -/
def lineOf : Except LexError Token → Nat
  | .ok token => token.line
  | .error fault => fault.line

/-- A cursor that has passed the given start of a source. -/
structure IsBehind (source : String) (before : List Char) (cursor : Cursor) : Prop where
  rest : source.toList = before ++ cursor.rest
  line : cursor.line = lineAt before

variable {source : String} {before place : List Char} {cursor : Cursor} {line : Nat}
  {reading : Reading}

/-- What is met is on the line of its place, whether it is a word or a fault. -/
theorem Meets.lineOf_eq (meets : Meets line place reading) : lineOf reading.result = line := by
  -- Words and faults carry the line that they were met on.
  cases meets <;> rfl

/-- What is met is passed along with its line feeds, which only comments have. -/
theorem Meets.exists_passed (meets : Meets line place reading) :
    ∃ passed, place = passed ++ reading.next.rest ∧
      reading.next.line = line + passed.count '\n' := by
  cases meets with
  | ended | character => exact ⟨[], rfl, rfl⟩
  | @word text _ _ isWord | @number text _ isWord =>
    -- No word goes on in another line.
    have noFeed : text.count '\n' = 0 := List.count_eq_zero_of_not_mem isWord.visible.2
    exact ⟨text, rfl, by simp [noFeed]⟩
  | @comment body => exact ⟨'/' :: '*' :: body, by simp, by simp⟩

namespace IsBehind

/-- The start of a source has nothing before it. -/
theorem start (source : String) : IsBehind source [] (ofSource source) :=
  -- The first line is the one that a source starts on.
  ⟨rfl, rfl⟩

/-- A call meets something behind a gap, and leaves the cursor behind what it passed. -/
theorem next (behind : IsBehind source before cursor) :
    ∃ gap place passed, cursor.rest = gap ++ place ∧ IsWholeGap gap place ∧
      Meets (lineAt (before ++ gap)) place cursor.next ∧
      IsBehind source (before ++ gap ++ passed) cursor.next.next := by
  obtain ⟨gap, place, same, isWhole, meets⟩ := cursor.next_meets
  -- The lines are those of what was passed before and of the gap.
  have stands : cursor.line + gap.count '\n' = lineAt (before ++ gap) := by
    simp [behind.line, lineAt, Nat.add_assoc]
  rw [stands] at meets
  obtain ⟨passed, split, moved⟩ := meets.exists_passed
  refine ⟨gap, place, passed, same, isWhole, meets, ?_, ?_⟩
  · rw [behind.rest, same, split]
    simp
  · simp [moved, lineAt, Nat.add_assoc]

/-- After any number of calls, faults included, the cursor keeps its line. -/
theorem afterCalls (source : String) (calls : Nat) :
    ∃ before, IsBehind source before ((ofSource source).afterCalls calls) := by
  -- By the number of calls: a call that fails moves the cursor as well.
  induction calls with
  | zero => exact ⟨[], start source⟩
  | succ calls ih =>
    obtain ⟨before, behind⟩ := ih
    obtain ⟨gap, place, passed, -, -, -, moved⟩ := behind.next
    exact ⟨_, moved⟩

/-- A call names a line of the source, and none before the line of the cursor. -/
theorem line_bounds (behind : IsBehind source before cursor) :
    cursor.line ≤ lineOf cursor.next.result ∧
      lineOf cursor.next.result ≤ cursor.next.next.line ∧
      lineOf cursor.next.result ≤ lineAt source.toList := by
  -- The line of the place is between those of the cursor before and after the call.
  obtain ⟨gap, place, passed, same, -, meets, moved⟩ := behind.next
  rw [meets.lineOf_eq, moved.line, behind.line, behind.rest, same]
  simp only [lineAt, List.count_append]
  omega

end IsBehind

namespace Yields

variable {result : Except LexError (List Token)} {tokens : List Token}

/-- The lines of words never decrease, and they are lines of the source. -/
theorem sorted (yields : Yields cursor (.ok tokens)) (behind : IsBehind source before cursor) :
    tokens.Pairwise (·.line ≤ ·.line) ∧
      ∀ token ∈ tokens, cursor.line ≤ token.line ∧ token.line ≤ lineAt source.toList := by
  generalize same : Except.ok tokens = result at yields
  -- Along the calls, as each starts where the one before it ended.
  induction yields generalizing tokens before with
  | @ended cursor token read isEnd =>
    obtain rfl := Except.ok.inj same
    have bounds := behind.line_bounds
    rw [read] at bounds
    exact ⟨List.pairwise_singleton _ _, List.forall_mem_singleton.mpr ⟨bounds.1, bounds.2.2⟩⟩
  | failed => cases same
  | @next cursor token result read notEnd _ ih =>
    cases result with
    | error => cases same
    | ok more =>
      obtain rfl := Except.ok.inj same
      have bounds := behind.line_bounds
      rw [read] at bounds
      obtain ⟨gap, place, passed, -, -, -, moved⟩ := behind.next
      obtain ⟨sorted, within⟩ := ih moved rfl
      -- The words behind this one start where it ends.
      refine ⟨List.pairwise_cons.mpr ⟨fun later member => ?_, sorted⟩, ?_⟩
      · exact Nat.le_trans bounds.2.1 (within later member).1
      · refine List.forall_mem_cons.mpr ⟨⟨bounds.1, bounds.2.2⟩, fun later member => ?_⟩
        -- What is behind this word comes no earlier than the cursor does.
        have onward := Nat.le_trans bounds.1 bounds.2.1
        exact ⟨Nat.le_trans onward (within later member).1, (within later member).2⟩

end Yields

end Cursor

end Shading

import Shading.Proofs.Grammar.Body
import Shading.Proofs.Grammar.ExprSound

/-! Whatever the readers of statements accept is a statement of the grammar. -/

namespace Shading.Grammar

open Source BodyPhrase

variable {room : Nat}

/-- The declaration of a local variable is read with its initial value, if it has one. -/
theorem localDeclaration_sound (room : Nat) :
    Sound (localDeclaration room) fun s => (BodyPhrase.statement s).Spans room := by
  intro tokens s rest read
  -- A type and a name come first; the sign behind them tells whether a value is given.
  simp only [localDeclaration, bind_eq_ok, Prod.exists, dataType_eq_ok, name_eq_ok] at read
  obtain ⟨type, _, ⟨line, rfl⟩, name, afterName, ⟨line', rfl, free⟩, read⟩ := read
  split at read
  · rename_i assigned
    obtain ⟨line'', initialWords, rfl⟩ := startsWith_iff.mp assigned
    simp only [bind_eq_ok, Prod.exists, List.tail_cons, expect_eq_ok, pure_eq_ok,
      Prod.mk.injEq] at read
    obtain ⟨initial, _, readInitial, _, ⟨lastLine, rfl⟩, rfl, rfl⟩ := read
    exact .initialise free (expression_sound room readInitial)
  · -- No value is given, so the declaration ends.
    simp only [bind_eq_ok, expect_eq_ok, pure_eq_ok, Prod.mk.injEq] at read
    obtain ⟨_, ⟨line'', rfl⟩, rfl, rfl⟩ := read
    exact .declare free

/-- An assignment is read, or an expression that stands alone. -/
theorem assignment_sound (room : Nat) :
    Sound (assignment room) fun s => (BodyPhrase.statement s).Spans room := by
  intro tokens s rest read
  -- Whatever is stored to is read as an expression before it is known to be a target.
  simp only [assignment, bind_eq_ok, Prod.exists] at read
  obtain ⟨target, afterTarget, readTarget, read⟩ := read
  split at read
  · rename_i op met
    obtain ⟨line, valueWords, rfl⟩ := headAssign?_eq_some.mp met
    split at read
    · rename_i assignable
      simp only [bind_eq_ok, Prod.exists, List.tail_cons, expect_eq_ok, pure_eq_ok,
        Prod.mk.injEq] at read
      obtain ⟨value, _, readValue, _, ⟨line', rfl⟩, rfl, rfl⟩ := read
      exact .assign (expression_sound room readTarget) assignable (expression_sound room readValue)
    · -- What cannot be stored to is refused.
      simp [unexpected] at read
  · -- With no operator, the expression stands alone.
    simp only [bind_eq_ok, expect_eq_ok, pure_eq_ok, Prod.mk.injEq] at read
    obtain ⟨_, ⟨line, rfl⟩, rfl, rfl⟩ := read
    exact .evaluate (expression_sound room readTarget)

/-- A statement that holds no others is read. -/
theorem simpleStatement_sound (room : Nat) :
    Sound (simpleStatement room) fun s => (BodyPhrase.statement s).Spans room := by
  intro tokens s rest read
  simp only [simpleStatement] at read
  split at read
  · rename_i met
    obtain ⟨line, after, rfl⟩ := headKeyword?_eq_some.mp met
    -- The keyword is all that there is before the semicolon.
    simp only [bind_eq_ok, List.tail_cons, expect_eq_ok, pure_eq_ok, Prod.mk.injEq] at read
    obtain ⟨_, ⟨line', rfl⟩, rfl, rfl⟩ := read
    exact .discard
  · rename_i met
    obtain ⟨line, after, rfl⟩ := headKeyword?_eq_some.mp met
    simp only [bind_eq_ok, List.tail_cons, expect_eq_ok, pure_eq_ok, Prod.mk.injEq] at read
    obtain ⟨_, ⟨line', rfl⟩, rfl, rfl⟩ := read
    exact .leave
  · -- No keyword was met, and the name behind a type tells a declaration from a call of it.
    split at read
    · split at read
      · exact localDeclaration_sound room read
      · exact assignment_sound room read
    · exact assignment_sound room read

/-- The single statement that is read spans a phrase, one level deeper than where it is used. -/
def NestedPart (phrase : SourceStatement → BodyPhrase) (room : Nat) (ss : List SourceStatement)
    (tokens rest : List Token) : Prop :=
  ∃ inner s, room = inner + 1 ∧ ss = [s] ∧ (phrase s).Spans inner tokens rest

/-- The readers of parts of a body accept what the grammar has rules for, a level deeper. -/
structure SoundReaders (room : Nat) (readers : BodyParsers) : Prop where
  statement : SoundParts readers.statement (NestedPart .statement room)
  conditional : ∀ ⦃tokens rest⦄, startsConditional tokens = true →
    (readers.conditional tokens).rest = .ok rest →
    NestedPart .conditional room (readers.conditional tokens).completed tokens rest
  selection : ∀ ⦃tokens s rest⦄, headKeyword? tokens = some .selection →
    readers.selection tokens = .ok (s, rest) →
    ∃ inner, room = inner + 1 ∧ (BodyPhrase.selection s).Spans inner tokens rest
  block : Sound readers.block fun ss => (BodyPhrase.block ss).Spans room

variable {inner : BodyParsers}

/-- An `if` is read with its blocks. -/
theorem selection_sound (sound : SoundReaders room inner) {tokens rest : List Token}
    {s : SourceStatement} (starts : headKeyword? tokens = some .selection)
    (read : Source.selection room inner tokens = .ok (s, rest)) :
    (BodyPhrase.selection s).Spans room tokens rest := by
  obtain ⟨line, after, rfl⟩ := headKeyword?_eq_some.mp starts
  -- The condition and the first block are read before it is known how the statement goes on.
  simp only [Source.selection, bind_eq_ok, Prod.exists, List.tail_cons, expect_eq_ok] at read
  obtain ⟨_, ⟨line', rfl⟩, condition, _, readCondition, _, ⟨line'', rfl⟩, yes, afterYes, readYes,
    read⟩ := read
  have spansCondition := expression_sound room readCondition
  have spansYes := sound.block readYes
  split at read
  · rename_i met
    obtain ⟨elseLine, afterElse, rfl⟩ := headKeyword?_eq_some.mp (by simpa using met)
    split at read
    · rename_i again
      -- An `if` behind `else` is read on the level below.
      simp only [bind_eq_ok, Prod.exists, List.tail_cons, pure_eq_ok, Prod.mk.injEq] at read
      obtain ⟨no, _, readNo, rfl, rfl⟩ := read
      obtain ⟨fewer, rfl, spansNo⟩ := sound.selection (by simpa using again) readNo
      exact .ifElseIf spansCondition spansYes spansNo
    · -- Otherwise a block has to follow.
      simp only [bind_eq_ok, Prod.exists, List.tail_cons, pure_eq_ok, Prod.mk.injEq] at read
      obtain ⟨no, _, readNo, rfl, rfl⟩ := read
      exact .ifThenElse spansCondition spansYes (sound.block readNo)
  · -- There is no `else`.
    simp only [pure_eq_ok, Prod.mk.injEq] at read
    obtain ⟨rfl, rfl⟩ := read
    exact .ifThen spansCondition spansYes

/-- The statements of a region are read up to its closing brace. -/
theorem region_sound (sound : SoundReaders room inner) (limit : Nat) :
    SoundParts (untilBrace inner.statement limit) fun ss => (region ss).Spans room := by
  -- Each statement of a region is read a level below it.
  refine untilBrace_sound sound.statement .endRegion ?_ limit
  rintro _ more tokens between rest ⟨fewer, s, rfl, rfl, first⟩ spansMore
  exact .nextInRegion first spansMore

/-- The single statement that is read spans a phrase. -/
def SinglePart (phrase : SourceStatement → BodyPhrase) (room : Nat) (ss : List SourceStatement)
    (tokens rest : List Token) : Prop :=
  ∃ s, ss = [s] ∧ (phrase s).Spans room tokens rest

/-- A conditional among statements is read with its regions. -/
theorem conditionalStatement_sound (sound : SoundReaders room inner) {tokens rest : List Token}
    (starts : startsConditional tokens = true)
    (read : (Source.conditional .choice inner.statement inner.conditional tokens).rest = .ok rest) :
    SinglePart .conditional room
      (Source.conditional .choice inner.statement inner.conditional tokens).completed tokens rest := by
  -- All rules are those of conditionals in general, with statements one level below.
  refine conditional_sound (region_sound sound) ?_
    (fun free yes no => ⟨_, rfl, .conditional free yes no⟩) starts read
  refine alternative_sound (region_sound sound) @sound.conditional .without .otherwise ?_
  rintro _ line tokens rest ⟨fewer, s, rfl, rfl, spans⟩
  exact .chained spans

/-- A statement or a conditional among statements is read. -/
theorem statement_sound (sound : SoundReaders room inner) :
    SoundParts (Source.statement room inner) (SinglePart .statement room) := by
  -- The first word tells which of the three kinds of statement is read.
  intro tokens rest read
  simp only [Source.statement] at read ⊢
  split at read
  · rename_i met
    -- Both keywords of a test are read as a conditional.
    obtain ⟨s, single, spans⟩ :=
      conditionalStatement_sound sound (by simp [startsConditional, met]) read
    exact ⟨s, single, .tested spans⟩
  · rename_i met
    obtain ⟨s, single, spans⟩ :=
      conditionalStatement_sound sound (by simp [startsConditional, met]) read
    exact ⟨s, single, .tested spans⟩
  · rename_i met
    obtain ⟨s, readSelection, single⟩ := ofResult_rest_eq_ok.mp read
    exact ⟨s, single, .selected (selection_sound sound met readSelection)⟩
  · obtain ⟨s, readSimple, single⟩ := ofResult_rest_eq_ok.mp read
    exact ⟨s, single, simpleStatement_sound room readSimple⟩

/-- The statements of a block are read between its braces. -/
theorem block_sound (sound : SoundReaders room inner) :
    Sound (Source.block (Source.statement room inner)) fun ss =>
      (BodyPhrase.block ss).Spans (room + 1) := by
  intro tokens ss rest read
  -- A block is read only as a whole, so that all its statements count.
  have outcome := toResult_eq_ok.mp read
  obtain ⟨line, inside, rfl, readInside, completed⟩ :=
    braced_rest_eq_ok.mp (congrArg Outcome.rest outcome)
  rw [outcome] at completed
  obtain rfl : ss = _ := completed
  -- Between the braces one statement is read after the other.
  have ending : ∀ limit, SoundParts (untilBrace (Source.statement room inner) limit)
      fun ss => (blockEnd ss).Spans room := by
    refine untilBrace_sound (statement_sound sound) .endBlock ?_
    rintro _ more tokens between rest ⟨s, rfl, first⟩ spansMore
    exact .nextInBlock first spansMore
  exact .block (ending _ readInside)

/-- What the readers of a number of levels accept is part of a body. -/
theorem bodyParsers_sound (room : Nat) : SoundReaders room (bodyParsers room) := by
  induction room with
  -- With no level left, no reader accepts anything.
  | zero => exact ⟨by simp [SoundParts, bodyParsers, tooDeep], by simp [bodyParsers, tooDeep],
      by simp [bodyParsers, tooDeep], tooDeep_sound⟩
  | succ room ih =>
    -- Each reader is sound where those of the level below are.
    refine ⟨fun _ _ read => ?_, fun _ _ starts read => ?_, fun _ _ _ starts read => ?_,
      block_sound ih⟩
    · obtain ⟨s, single, spans⟩ := statement_sound ih read
      exact ⟨room, s, rfl, single, spans⟩
    · obtain ⟨s, single, spans⟩ := conditionalStatement_sound ih starts read
      exact ⟨room, s, rfl, single, spans⟩
    · exact ⟨room, rfl, selection_sound ih starts read⟩

end Shading.Grammar

import Shading.Proofs.Grammar.BodySound
import Shading.Proofs.Walk.Expressions
import Shading.Proofs.Walk.Parts

/-! Statements are read with a state as the statements that their source stands for. -/

namespace Shading.Walk

open Source Grammar

variable {isDefined : String → Bool} {s : State} {room : Nat}

/-- The statements of two parts of a body are those of the first one and then those of the second. -/
theorem resolveAll_append (statements others : List SourceStatement) :
    resolveAll isDefined (statements ++ others) =
      resolveAll isDefined statements ++ resolveAll isDefined others := by
  -- Along the first part of the body.
  induction statements with
  | nil => rfl
  | cons first statements ih => simp [resolveAll, ih]

/-- Statements declare nothing, and stand for what is left of them under the defines. -/
def statements (isDefined : String → Bool) :
    Meaning isDefined SourceStatement.choice Statement where
  effect _ draft parts := .ok (draft, resolveAll isDefined parts)
  nil _ _ := rfl
  append _ _ parts more := by
    rw [resolveAll_append]
    rfl
  chosen _ _ guard yes no := by
    cases holds : guard.holds isDefined <;> simp [resolveAll, SourceStatement.resolve, holds]
  idle _ _ := ⟨_, rfl⟩

/-- What is read of a block as a whole is what its statements amount to. -/
theorem foretell_toResult (active : Bool) (draft : Draft) (outcome : Outcome SourceStatement) :
    (statements isDefined).foretell active draft outcome =
      foretell (resolveAll isDefined) draft outcome.toResult := by
  -- Statements declare nothing, so that only what is read counts.
  obtain ⟨completed, rest⟩ := outcome
  cases rest <;> rfl

/-- What is read of a single statement is what it amounts to. -/
theorem foretell_ofResult (active : Bool) (draft : Draft)
    (reading : Except GrammarError (SourceStatement × List Token)) :
    (statements isDefined).foretell active draft (.ofResult reading) =
      foretell (SourceStatement.resolve isDefined) draft reading := by
  -- A single statement is a block of its own.
  cases reading with
  | error error => rfl
  | ok read => simp [Meaning.foretell, foretell, Outcome.ofResult, statements, resolveAll]

/-- The declaration of a local variable is read. -/
theorem localDeclaration_reads (ready : s.Ready room) :
    Reads (SourceStatement.resolve isDefined) s (localDeclaration room)
      (Source.localDeclaration room s.words) := by
  have expression := expression_reads room
  -- A declaration takes words, and so a record is kept of it.
  refine .visiting ready ?_ fun read => (localDeclaration_sound room read).length_le
  refine .bind ready (dataType_reads ready) fun type _ ready₁ _ => ?_
  refine .bind ready₁ (name_reads ready₁ .variableName) fun name _ ready₂ _ => ?_
  -- An initial value is read behind its sign, and the semicolon in both cases.
  refine .look (fun _ => rfl) (.branch (fun assigned => ?_) fun _ => ?_)
  · refine .advance ready₂ (more_of_startsWith assigned) fun ready₃ words => ?_
    rw [← words]
    refine .bind ready₃ (expression.reads ready₃) fun initial _ ready₄ _ => ?_
    exact Passes.bind ready₄ (pass_passes ready₄ _) fun ready₅ _ =>
      Reads.done ready₅ (SourceStatement.declare ⟨type, name⟩ (some initial))
  · exact Passes.bind ready₂ (pass_passes ready₂ _) fun ready₃ _ =>
      Reads.done ready₃ (SourceStatement.declare ⟨type, name⟩ none)

/-- An assignment or an expression that stands alone is read. -/
theorem assignment_reads (ready : s.Ready room) :
    Reads (SourceStatement.resolve isDefined) s (assignment room)
      (Source.assignment room s.words) := by
  have expression := expression_reads room
  -- The expression comes first in either form.
  refine .bind ready (expression.reads ready) fun target {s₁} ready₁ _ => ?_
  -- What follows the expression tells whether it was the target of an assignment.
  refine .look (fun _ => rfl) ?_
  dsimp only
  cases met : headAssign? s₁.words with
  | some op =>
    obtain ⟨line, after, split⟩ := headAssign?_eq_some.mp met
    refine .branch (fun _ => ?_) fun _ => .fault ready₁
    refine .advance ready₁ (by rw [split]; rfl) fun ready₂ words => ?_
    rw [← words]
    refine .bind ready₂ (expression.reads ready₂) fun value _ ready₃ _ => ?_
    exact Passes.bind ready₃ (pass_passes ready₃ _) fun ready₄ _ =>
      Reads.done ready₄ (SourceStatement.assign target op value)
  | none =>
    exact Passes.bind ready₁ (pass_passes ready₁ _) fun ready₂ _ =>
      Reads.done ready₂ (SourceStatement.evaluate target)

/-- Bodies one level deeper are read as the parsers of a number of levels read them. -/
structure ReadsBodies (isDefined : String → Bool) (room : Nat) (inner : Bodies)
    (parsers : BodyParsers) : Prop extends
    ReadsNested (statements isDefined) room inner.statement inner.conditional parsers.statement
      parsers.conditional where
  selection : ∀ {s : State}, s.Ready room → headKeyword? s.words = some .selection →
    Reads (SourceStatement.resolve isDefined) s (nested inner.selection)
      (parsers.selection s.words)
  block : ∀ {s : State}, s.Ready room →
    Reads (resolveAll isDefined) s (block inner) (parsers.block s.words)
  sound : SoundReaders room parsers

variable {inner : Bodies} {parsers : BodyParsers}

/-- An `if` is read with its blocks. -/
theorem selection_reads (bodies : ReadsBodies isDefined room inner parsers) (ready : s.Ready room)
    (starts : headKeyword? s.words = some .selection) :
    Reads (SourceStatement.resolve isDefined) s (selection room (block inner) inner.selection)
      (Source.selection room parsers s.words) := by
  refine .visiting ready ?_ fun read => (selection_sound bodies.sound starts read).length_le
  refine .advance ready (more_of_headKeyword starts) fun ready₁ words => ?_
  unfold Source.selection
  rw [← words]
  refine Passes.bind ready₁ (pass_passes ready₁ _) fun ready₂ _ => ?_
  refine .bind ready₂ ((expression_reads room).reads ready₂) fun condition _ ready₃ _ => ?_
  refine Passes.bind ready₃ (pass_passes ready₃ _) fun ready₄ _ => ?_
  refine .bind ready₄ (bodies.block ready₄) fun yes _ ready₅ _ => ?_
  refine .look (fun _ => rfl) (.branch (fun otherwise => ?_) fun _ =>
    Reads.done ready₅ (SourceStatement.ifThen condition yes))
  refine .advance ready₅ (more_of_headKeyword (by simpa using otherwise)) fun ready₆ words => ?_
  rw [← words]
  -- Only an alternative that is an `if` again is read without a block of its own.
  refine .look (fun _ => rfl) (.branch (fun again => ?_) fun _ => ?_)
  · refine .bind ready₆ (bodies.selection ready₆ (by simpa using again)) fun no _ ready₇ _ => ?_
    -- The single statement of the alternative is its block.
    have left : resolveAll isDefined [no] = no.resolve isDefined := by simp [resolveAll]
    rw [← left]
    exact Reads.done ready₇ (SourceStatement.ifThenElse condition yes [no])
  · exact .bind ready₆ (bodies.block ready₆) fun no _ ready₇ _ =>
      Reads.done ready₇ (SourceStatement.ifThenElse condition yes no)

/-- A statement that is one keyword is read with its semicolon. -/
theorem keyword_reads {keyword : Keyword} (statement : SourceStatement) (ready : s.Ready room)
    (starts : headKeyword? s.words = some keyword) :
    Reads (SourceStatement.resolve isDefined) s (do
        advance
        pass .semicolon
        return statement.resolve isDefined) (do
      let rest ← expect .semicolon s.words.tail
      return (statement, rest)) := by
  -- The keyword and its semicolon are all there is to pass.
  refine .advance ready (more_of_headKeyword starts) fun ready₁ words => ?_
  rw [← words]
  exact Passes.bind ready₁ (pass_passes ready₁ _) fun ready₂ _ => Reads.done ready₂ statement

/-- A statement that starts with no keyword of its own is read. -/
theorem plainStatement_reads (ready : s.Ready room)
    (noDiscard : headKeyword? s.words ≠ some .discard)
    (noLeave : headKeyword? s.words ≠ some .leave) :
    Reads (SourceStatement.resolve isDefined) s (plainStatement room)
      (simpleStatement room s.words) := by
  -- The keywords with a statement of their own are excluded, which leaves the last case.
  unfold simpleStatement
  split
  · contradiction
  · contradiction
  · refine .look (fun _ => rfl) ?_
    cases met : (headToken s.words).lexeme with
    | identifier name =>
      refine .peek ready (by simp [Token.isEnd, met]) (fun _ => rfl) ?_
      exact .branch (fun _ => localDeclaration_reads ready) fun _ => assignment_reads ready
    | _ => exact assignment_reads ready

/-- A single statement is read as what it amounts to. -/
theorem ReadsParts.of_statement {reader : Walk (List Statement)}
    {reading : Except GrammarError (SourceStatement × List Token)}
    (reads : Reads (SourceStatement.resolve isDefined) s reader reading) :
    ReadsParts (statements isDefined) s reader (.ofResult reading) :=
  -- What is told of both is the same.
  .of_reads reads (foretell_ofResult _ _ _)

/-- A statement or the statements of a conditional are read. -/
theorem statement_reads (bodies : ReadsBodies isDefined room inner parsers)
    (ready : s.Ready room) :
    ReadsParts (statements isDefined) s (statement isDefined room inner)
      (Source.statement room parsers s.words) := by
  refine .visiting ready (.look (fun _ => rfl) ?_) fun read => ?_
  · unfold Source.statement
    -- The first word tells which statement it is.
    cases met : headKeyword? s.words with
    | none =>
      exact .of_statement (plainStatement_reads ready (by simp [met]) (by simp [met]))
    | some keyword =>
      cases keyword with
      -- Tests give any number of statements, and all other keywords a single one.
      | ifDefined | ifUndefined =>
        exact bodies.conditional_reads ready (by simp [startsConditional, met])
      | selection => exact .of_statement (selection_reads bodies ready met)
      | discard =>
        have reads : Reads (SourceStatement.resolve isDefined) s _ _ :=
          keyword_reads .discard ready met
        refine .of_statement ?_
        rw [simpleStatement, met]
        exact reads
      | leave =>
        have reads : Reads (SourceStatement.resolve isDefined) s _ _ :=
          keyword_reads .leave ready met
        refine .of_statement ?_
        rw [simpleStatement, met]
        exact reads
      | _ => exact .of_statement (plainStatement_reads ready (by simp [met]) (by simp [met]))
  · -- A statement that was read is a phrase of the grammar, behind which fewer words are left.
    obtain ⟨statement, -, spans⟩ := statement_sound bodies.sound read
    exact spans.length_le

/-- A block is read with its statements. -/
theorem braced_statements_read (bodies : ReadsBodies isDefined room inner parsers)
    (ready : s.Ready room) :
    Reads (resolveAll isDefined) s (braced (statement isDefined room inner))
      (Source.block (Source.statement room parsers) s.words) := by
  have takes : Takes (Source.statement room parsers) := by
    intro tokens rest read
    obtain ⟨_, _, spans⟩ := statement_sound bodies.sound read
    exact spans.length_le
  -- A block is read as a whole, so what was completed before a fault does not matter.
  have reads := braced_reads (statement_reads bodies) takes ready
  rw [ReadsParts, foretell_toResult] at reads
  exact reads

/-- Bodies are read one level deeper when each of their readers does what the parser for it does. -/
theorem ReadsBodies.of_nested
    (part : ∀ {s : State}, s.Ready room →
      ReadsParts (statements isDefined) s (nested inner.statement)
        ((bodyParsers room).statement s.words))
    (chained : ∀ {s : State}, s.Ready room → startsConditional s.words = true →
      ReadsParts (statements isDefined) s (nested inner.conditional)
        ((bodyParsers room).conditional s.words))
    (selection : ∀ {s : State}, s.Ready room → headKeyword? s.words = some .selection →
      Reads (SourceStatement.resolve isDefined) s (nested inner.selection)
        ((bodyParsers room).selection s.words))
    (braced : ∀ {s : State}, s.Ready room →
      Reads (resolveAll isDefined) s (nested inner.braced) ((bodyParsers room).block s.words)) :
    ReadsBodies isDefined room inner (bodyParsers room) := by
  -- That words are taken is known of the parsers.
  have sound := bodyParsers_sound room
  refine ⟨⟨part, chained, ?_, ?_⟩, selection, fun ready => .visiting ready (braced ready) ?_, sound⟩
  · intro tokens rest read
    obtain ⟨_, _, _, _, spans⟩ := sound.statement read
    exact spans.length_le
  · intro tokens rest starts read
    obtain ⟨_, _, _, _, spans⟩ := sound.conditional starts read
    exact spans.length_le
  · intro body rest read
    exact (sound.block read).length_le

/-- The readers of a number of levels read one level deeper what the parsers of that number accept. -/
theorem bodies_read (isDefined : String → Bool) (room : Nat) :
    ReadsBodies isDefined room (bodies isDefined room) (bodyParsers room) := by
  -- By the number of levels.
  induction room with
  | zero =>
    -- With no level left, all of them find that it is too deep.
    exact .of_nested (fun ready => .nested ready (fun _ => rfl) nofun)
      (fun ready _ => .nested ready (fun _ => rfl) nofun)
      (fun ready _ => .nested ready (fun _ => rfl) nofun)
      (fun ready => .nested ready (fun _ => rfl) nofun)
  | succ room ih =>
    refine .of_nested (fun ready => .nested ready nofun ?_) (fun ready starts => .nested ready nofun ?_)
      (fun ready starts => .nested ready nofun ?_) (fun ready => .nested ready nofun ?_)
    all_goals
      intro fewer s' less below words
      obtain rfl : room = fewer := by omega
      rw [← words]
    · exact statement_reads ih below
    · exact ih.conditional_reads below (words ▸ starts)
    · exact selection_reads ih below (words ▸ starts)
    · exact braced_statements_read ih below

end Shading.Walk

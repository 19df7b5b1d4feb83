import Shading.Proofs.Glsl.Bodies

/-! Written statements are read back as the statements that they were written for. -/

namespace Shading.Glsl

open Cursor Grammar Source

/-- A declaration that can stand in a body, where textures cannot. -/
structure IsLocal (d : Declaration) : Prop extends IsNamed d where
  untextured : d.type ≠ .texture2D

/-- No block starts with a name. -/
theorem noBlock_name {name : String} (isName : IsName name) (after : List Char) :
    NoBlock (name.toList ++ after) := by
  -- A brace starts no name.
  obtain ⟨c, rest, same, starts⟩ := isName.starts
  rw [same]
  rintro first
  obtain rfl : c = '\x7b' := Option.some.inj first
  exact absurd starts (by decide)

/-- No block starts with an expression. -/
theorem noBlock_expression {e : Expr} (valid : e.Valid) (after : List Char) :
    NoBlock (chars (exprMarks e) ++ after) := by
  obtain ⟨c, rest, same, kind⟩ := opensWith valid
  rw [same]
  rintro first
  obtain rfl : c = '\x7b' := Option.some.inj first
  -- Neither a sign, nor a parenthesis, nor what continues a name is a brace.
  split at kind
  · cases kind
  · exact absurd kind (by decide)

/-- What can be assigned to can still be when it is read back. -/
theorem isAssignable_readForm {target : Expr} (assignable : IsAssigned target) :
    (readForm target).isAssignable = true := by
  -- Only fields are changed, and they remain fields.
  cases target with
  | «variable» | field | index => simp [readForm, Expr.shielded, Expr.renamed, Expr.isAssignable]
  | _ => cases assignable

/-- Types other than textures have the same word in GLSL. -/
theorem typeWord_eq_keyword {type : DataType} (untextured : type ≠ .texture2D) :
    typeWord type = type.keyword := by
  -- The type that is spelled otherwise is left out.
  cases type <;> first
    | rfl
    | exact absurd rfl untextured

/-- An assignment is no point. -/
theorem assign_ne_dot (op : AssignOp) : op.symbol ≠ .dot := by
  -- There are six of them, each of which ends with an equals sign.
  cases op <;> decide

/-- A written declaration is read. -/
theorem declare_reads {d : Declaration} (isLocal : IsLocal d) :
    StatementReads (.declare d none) := by
  obtain ⟨type, name⟩ := d
  obtain ⟨⟨isName, free⟩, untextured⟩ := isLocal
  -- The type is written by its own keyword, as it is no texture.
  refine ⟨[Grammar.word type.keyword 1, Grammar.word name 1, sign .semicolon 1], 0, ?_, ?_,
    fun rest => .declare free⟩
  · intro after
    simpa [statementMarks, typeWord_eq_keyword untextured] using
      noBlock_name (isName_keyword type) _
  · intro after noBlock
    -- From the semicolon to the type, every word is read in front of those behind it.
    have atName := Reads.name isName (ends_sign (by decide) _).source.run
      (.lastSign (s := .semicolon) (by decide) noBlock)
    have atType := Reads.name (isName_keyword type) (ends_blank _).source.run atName.blank
    simpa [statementMarks, typeWord_eq_keyword untextured, Symbol.spelling] using atType

/-- A written declaration with an initial value is read. -/
theorem initialise_reads {d : Declaration} {initial : Expr} (isLocal : IsLocal d)
    (valid : initial.Valid) :
    StatementReads (.declare d (some initial)) := by
  -- The statement is read from its last word to its first.
  obtain ⟨type, name⟩ := d
  obtain ⟨⟨isName, free⟩, untextured⟩ := isLocal
  obtain ⟨words, room, -, reads, spans⟩ := expression_reads valid
  refine ⟨Grammar.word type.keyword 1 :: Grammar.word name 1 :: sign .assign 1 ::
    (words ++ [sign .semicolon 1]), room, ?_, ?_, ?_⟩
  · intro after
    simpa [statementMarks, typeWord_eq_keyword untextured] using
      noBlock_name (isName_keyword type) _
  · intro after noBlock
    have atValue := (reads _ (ends_sign (by decide) _)).append
      (.lastSign (s := .semicolon) (by decide) noBlock)
    -- Blanks on both sides keep the symbol apart.
    have atAssign := Reads.sign .assign (by decide) (apart_blank _ _) atValue.blank
    have atName := Reads.name isName (ends_blank _).source.run atAssign.blank
    have atType := Reads.name (isName_keyword type) (ends_blank _).source.run atName.blank
    simpa [statementMarks, typeWord_eq_keyword untextured, Symbol.spelling] using atType
  · intro rest
    have value := spans (sign .semicolon 1 :: rest)
    simpa [statementPhrase, Statement.isSelection, sourceForm] using
      BodyPhrase.Spans.initialise free value

/-- A written assignment is read. -/
theorem assign_reads {target value : Expr} (op : AssignOp) (assignable : IsAssigned target)
    (validTarget : target.Valid) (validValue : value.Valid) :
    StatementReads (.assign target op value) := by
  -- Both expressions read on their own, and the operator stands between two blanks.
  obtain ⟨wordsTarget, roomTarget, -, readsTarget, spansTarget⟩ := expression_reads validTarget
  obtain ⟨words, room, -, reads, spans⟩ := expression_reads validValue
  refine ⟨wordsTarget ++ sign op.symbol 1 :: (words ++ [sign .semicolon 1]), max roomTarget room,
    ?_, ?_, ?_⟩
  · intro after
    simpa [statementMarks] using noBlock_expression validTarget _
  · intro after noBlock
    have atValue := (reads _ (ends_sign (by decide) _)).append
      (.lastSign (s := .semicolon) (by decide) noBlock)
    have atSymbol := Reads.sign op.symbol (assign_ne_dot op) (apart_blank _ _) atValue.blank
    have atTarget := (readsTarget _ (ends_blank _)).append atSymbol.blank
    simpa [statementMarks, Symbol.spelling] using atTarget
  · intro rest
    -- Both expressions are read within the levels of the deeper one.
    have target := (spansTarget (sign op.symbol 1 :: (words ++ sign .semicolon 1 :: rest))).mono
      (Nat.le_max_left roomTarget room)
    have value := (spans (sign .semicolon 1 :: rest)).mono (Nat.le_max_right roomTarget room)
    simpa [statementPhrase, Statement.isSelection, sourceForm] using
      BodyPhrase.Spans.assign target (isAssignable_readForm assignable) value

/-- A written expression that is only evaluated is read. -/
theorem evaluate_reads {e : Expr} (valid : e.Valid) : StatementReads (.evaluate e) := by
  obtain ⟨words, room, -, reads, spans⟩ := expression_reads valid
  refine ⟨words ++ [sign .semicolon 1], room, ?_, ?_, ?_⟩
  · intro after
    simpa [statementMarks] using noBlock_expression valid _
  · -- The semicolon ends the expression, and nothing behind it can be a block.
    intro after noBlock
    have whole := (reads _ (ends_sign (by decide) _)).append
      (.lastSign (s := .semicolon) (by decide) noBlock)
    simpa [statementMarks, Symbol.spelling] using whole
  · -- The semicolon is the one word that is added.
    intro rest
    have value := spans (sign .semicolon 1 :: rest)
    simpa [statementPhrase, Statement.isSelection, sourceForm] using BodyPhrase.Spans.evaluate value

/-- A statement of a single keyword is read. -/
theorem discard_reads : StatementReads .discard := by
  have keyword : IsName "discard" := isName_spelling .discard
  refine ⟨[Grammar.word "discard" 1, sign .semicolon 1], 0, ?_, ?_, fun rest => .discard⟩
  · intro after
    simpa [statementMarks] using noBlock_name keyword _
  · intro after noBlock
    -- The keyword is a name to the cutter, which the semicolon ends.
    have atKeyword := Reads.name keyword (ends_sign (by decide) _).source.run
      (.lastSign (s := .semicolon) (by decide) noBlock)
    simpa [statementMarks, Symbol.spelling] using atKeyword

/-- A return is read, with the blank that is written in front of its semicolon. -/
theorem leave_reads : StatementReads .leave := by
  have keyword : IsName "return" := isName_spelling .leave
  refine ⟨[Grammar.word "return" 1, sign .semicolon 1], 0, ?_, ?_, fun rest => .leave⟩
  · intro after
    simpa [statementMarks] using noBlock_name keyword _
  · intro after noBlock
    -- The blank ends the keyword, and has no part in what is read behind it.
    have atEnd := Reads.lastSign (s := .semicolon) (by decide) noBlock
    have atKeyword := Reads.name keyword (ends_blank _).source.run atEnd.blank
    simpa [statementMarks, Symbol.spelling] using atKeyword

/-- No block starts with a condition. -/
theorem noBlock_condition (condition : Expr) (after : List Char) :
    NoBlock (chars (conditionMarks condition) ++ after) := by
  -- A condition starts with the word `if`.
  simp [NoBlock, conditionMarks]

/-- A written statement that depends on a condition is read. -/
theorem ifThen_reads {condition : Expr} {yes : List Statement} (valid : condition.Valid)
    (block : BlockReads yes) : StatementReads (.ifThen condition yes) := by
  -- The condition is read up to its parenthesis, and the block with both of its braces.
  obtain ⟨words, room, reads, spans⟩ := condition_reads valid
  obtain ⟨wordsYes, roomYes, readsYes, spansYes⟩ := block.guarded
  refine ⟨Grammar.word "if" 1 :: sign .leftParen 1 :: (words ++ sign .rightParen 1 :: wordsYes),
    max room roomYes, ?_, ?_, ?_⟩
  · intro after
    simpa [statementMarks] using noBlock_condition condition _
  · intro after noBlock
    -- The end of the line behind the outer brace is skipped.
    obtain ⟨more, blank⟩ := asSource_feed after
    have whole := reads ((readsYes _ more blank).append (.feed noBlock .none))
    simpa [statementMarks, conditionMarks] using whole
  · intro rest
    have tested := (spans (sign .rightParen 1 :: (wordsYes ++ rest))).mono
      (Nat.le_max_left room roomYes)
    have chosen := (spansYes rest).mono (Nat.le_max_right room roomYes)
    simpa [statementPhrase, Statement.isSelection, sourceForm, Keyword.spelling] using
      BodyPhrase.Spans.ifThen tested chosen

/-- A written alternative is read, as a block or as a selection behind `else`. -/
def AlternativeReads (no : List Statement) : Prop :=
  ∃ words room,
    (∀ after, NoBlock after → Reads (chars (alternativeMarks no) ++ after) words after) ∧
    ∀ rest, (BodyPhrase.block (sourceForms no)).Spans room (words ++ rest) rest ∨
      ∃ s, sourceForms no = [s] ∧ (BodyPhrase.selection s).Spans room (words ++ rest) rest

/-- An alternative is read when each of its statements is. -/
theorem alternativeReads {no : List Statement} (each : ∀ s ∈ no, StatementReads s) :
    AlternativeReads no := by
  -- Whether the alternative is written with braces depends on its statements alone.
  obtain ⟨words, room, reads, spans, -⟩ := (blockReads each).compound
  cases no with
  | nil => exact ⟨words, room, reads, fun rest => .inl (spans rest)⟩
  | cons s more =>
    unfold AlternativeReads
    rw [alternativeMarks]
    split
    -- A selection that is alone is written behind `else` without braces.
    next single =>
      obtain ⟨selection, last⟩ := Bool.and_eq_true_iff.mp single
      obtain rfl := List.isEmpty_iff.mp last
      obtain ⟨words, room, -, reads, spans⟩ := each s (by simp)
      refine ⟨words, room, reads, fun rest => .inr ⟨sourceForm s, rfl, ?_⟩⟩
      simpa [statementPhrase, selection] using spans rest
    next => exact ⟨words, room, reads, fun rest => .inl (spans rest)⟩

/-- A written choice between two blocks is read. -/
theorem ifThenElse_reads {condition : Expr} {yes no : List Statement} (valid : condition.Valid)
    (block : BlockReads yes) (alternative : AlternativeReads no) :
    StatementReads (.ifThenElse condition yes no) := by
  have keyword : IsName "else" := isName_spelling .otherwise
  obtain ⟨words, room, reads, spans⟩ := condition_reads valid
  obtain ⟨wordsYes, roomYes, readsYes, spansYes⟩ := block.guarded
  obtain ⟨wordsNo, roomNo, readsNo, spansNo⟩ := alternative
  -- All three parts are spanned in the room of the largest of them.
  let enough := max (max room roomYes) roomNo
  have fits : room ≤ enough ∧ roomYes ≤ enough ∧ roomNo ≤ enough := by omega
  refine ⟨Grammar.word "if" 1 :: sign .leftParen 1 :: (words ++ sign .rightParen 1 ::
    (wordsYes ++ Grammar.word "else" 1 :: wordsNo)), enough + 1, ?_, ?_, ?_⟩
  · intro after
    simpa [statementMarks] using noBlock_condition condition _
  · intro after noBlock
    -- The word `else` stands between two blanks, the first of which ends the block.
    have atElse := Reads.name keyword (ends_blank _).source.run (readsNo after noBlock).blank
    have whole := reads ((readsYes _ _ (asSource_blank _)).append atElse.blank)
    simpa [statementMarks, conditionMarks] using whole
  · intro rest
    have tested := (spans (sign .rightParen 1 ::
      (wordsYes ++ Grammar.word "else" 1 :: (wordsNo ++ rest)))).mono (Nat.le_succ_of_le fits.1)
    have chosen := (spansYes (Grammar.word "else" 1 :: (wordsNo ++ rest))).mono
      (Nat.le_succ_of_le fits.2.1)
    -- An `if` behind `else` is one level deeper than the selection it belongs to.
    rcases spansNo rest with inBlock | ⟨s, single, selected⟩
    · have other := inBlock.mono (Nat.le_succ_of_le fits.2.2)
      simpa [statementPhrase, Statement.isSelection, sourceForm, Keyword.spelling] using
        BodyPhrase.Spans.ifThenElse tested chosen other
    · have other := selected.mono fits.2.2
      simpa [statementPhrase, Statement.isSelection, sourceForm, single, Keyword.spelling] using
        BodyPhrase.Spans.ifElseIf tested chosen other

/-- Every written statement of valid expressions is read. -/
theorem statementReads {s : Statement} (all : s.All Expr.Valid IsAssigned IsLocal) :
    StatementReads s := by
  -- By induction on the statement, where each constructor has its own lemma.
  induction all with
  | declare isLocal => exact declare_reads isLocal
  | initialise isLocal valid => exact initialise_reads isLocal valid
  | assign assignable target value => exact assign_reads _ assignable target value
  | evaluate valid => exact evaluate_reads valid
  | ifThen valid _ yes => exact ifThen_reads valid (blockReads yes)
  | ifThenElse valid _ _ yes no =>
    exact ifThenElse_reads valid (blockReads yes) (alternativeReads no)
  | discard => exact discard_reads
  | leave => exact leave_reads

end Shading.Glsl

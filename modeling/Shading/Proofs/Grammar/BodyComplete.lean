import Shading.Proofs.Grammar.Body
import Shading.Proofs.Grammar.ExprComplete

/-! Every statement of the grammar is read as what it stands for, where it fits. -/

namespace Shading.Grammar

open Source

variable {room : Nat} {tokens rest : List Token}

/-- What remains does not go on with an `else`. -/
abbrev NoElse (tokens : List Token) : Prop :=
  headKeyword? tokens ≠ some .otherwise

/-- What the readers of statements do with the words that a phrase spans. -/
def BodyPhrase.Completes (room : Nat) : BodyPhrase → List Token → List Token → Prop
  | .statement s, tokens, rest =>
    NoElse rest → Source.statement room (bodyParsers room) tokens = ⟨[s], .ok rest⟩
  | .selection s, tokens, rest =>
    NoElse rest → Source.selection room (bodyParsers room) tokens = .ok (s, rest)
  | .conditional s, tokens, rest =>
    NoElse rest → Source.conditional .choice (bodyParsers room).statement
      (bodyParsers room).conditional tokens = ⟨[s], .ok rest⟩
  | .block ss, tokens, rest =>
    (bodyParsers room).block tokens = .ok (ss, rest)
  -- The limit of the parts is never met before the words are.
  | .blockEnd ss, tokens, rest =>
    ∀ limit, tokens.length ≤ limit →
      untilBrace (Source.statement room (bodyParsers room)) limit tokens = ⟨ss, .ok rest⟩
  | .region ss, tokens, rest =>
    ∀ limit, tokens.length ≤ limit →
      untilBrace (bodyParsers room).statement limit tokens = ⟨ss, .ok rest⟩
  | .alternative ss, tokens, rest =>
    NoElse rest → Source.alternative (bodyParsers room).statement
      (bodyParsers room).conditional tokens = ⟨ss, .ok rest⟩

/-- A statement that starts with no keyword of a compound one is read as a simple one. -/
theorem statement_simple (noTest : startsConditional tokens = false)
    (noSelection : headKeyword? tokens ≠ some .selection) (inner : BodyParsers) :
    Source.statement room inner tokens = .ofResult (simpleStatement room tokens) := by
  -- Tests and selections are told by their keywords, neither of which is met.
  unfold Source.statement
  split
  · simp_all [startsConditional]
  · simp_all [startsConditional]
  · simp_all
  · rfl

/-- A type before a name declares it. -/
theorem simpleStatement_declaration (type : DataType) (name : String) (line line' : Nat)
    (after : List Token) :
    simpleStatement room (word type.keyword line :: word name line' :: after) =
      localDeclaration room (word type.keyword line :: word name line' :: after) := by
  -- The first word is a type, and the second one is an identifier.
  simp [simpleStatement, startsWithIdentifier]

/-- Before an expression, no declaration is read. -/
theorem simpleStatement_expression (starts : StartsExpression tokens) :
    simpleStatement room tokens = assignment room tokens := by
  -- No keyword is met, so that only a type with a name behind it would be read otherwise.
  simp only [simpleStatement, starts.noKeyword]
  split
  · rename_i name named
    rcases tokens with _ | ⟨⟨lexeme, line⟩, after⟩
    · cases named
    · obtain rfl : lexeme = .identifier name := named
      rw [if_neg]
      -- A name right behind the type would start a declaration.
      intro declared
      simp only [List.tail_cons, Bool.and_eq_true] at declared
      rw [starts.noDeclaration rfl declared.1] at declared
      exact absurd declared.2 (by decide)
  · rfl

/-- An expression in front of an assignment or of a semicolon is read first. -/
theorem statement_expression (starts : StartsExpression tokens) (inner : BodyParsers) :
    Source.statement room inner tokens = .ofResult (assignment room tokens) := by
  -- No keyword starts an expression, so that neither a conditional nor a selection does.
  rw [statement_simple (by simp [startsConditional, starts.noKeyword])
    (by simp [starts.noKeyword]), simpleStatement_expression starts]

/-- The symbols of assignments end the expressions in front of them. -/
theorem endsExpression_assign (op : AssignOp) (line : Nat) (rest : List Token) :
    EndsExpression (sign op.symbol line :: rest) := by
  -- None of the six symbols is an operator or starts a suffix.
  cases op <;> exact endsExpression_sign line rest (by decide) rfl

/-- A semicolon ends the expression in front of it. -/
theorem endsExpression_semicolon (line : Nat) (rest : List Token) :
    EndsExpression (sign .semicolon line :: rest) :=
  -- The symbol is no operator, and it starts no suffix.
  endsExpression_sign line rest (by decide) rfl

/-- A parenthesis ends the expression in front of it. -/
theorem endsExpression_rightParen (line : Nat) (rest : List Token) :
    EndsExpression (sign .rightParen line :: rest) :=
  -- The symbol is no operator, and it starts no suffix.
  endsExpression_sign line rest (by decide) rfl

/-- A declaration is read as a statement. -/
theorem statement_declaration (type : DataType) (name : String) (line line' : Nat)
    (after : List Token) (inner : BodyParsers) :
    Source.statement room inner (word type.keyword line :: word name line' :: after) =
      .ofResult (localDeclaration room (word type.keyword line :: word name line' :: after)) := by
  -- The word of a type is no keyword.
  rw [statement_simple (by simp [startsConditional]) (by simp), simpleStatement_declaration]

/-- A conditional is read as a statement. -/
theorem statement_conditional (starts : startsConditional tokens = true) (inner : BodyParsers) :
    Source.statement room inner tokens =
      Source.conditional .choice inner.statement inner.conditional tokens := by
  -- Either keyword of a test is met first.
  obtain ⟨present, line, after, rfl⟩ := startsConditional_iff.mp starts
  cases present <;> rfl

/-- A conditional starts with a test for a define. -/
theorem BodyPhrase.Spans.startsConditional {s : SourceStatement}
    (spans : (BodyPhrase.conditional s).Spans room tokens rest) :
    startsConditional tokens = true := by
  -- There is only one rule for conditionals, and it starts with the test.
  cases spans with
  | conditional => exact startsConditional_iff.mpr ⟨_, _, _, rfl⟩

/-- A selection starts with its keyword. -/
theorem BodyPhrase.Spans.startsSelection {s : SourceStatement}
    (spans : (BodyPhrase.selection s).Spans room tokens rest) :
    headKeyword? tokens = some .selection := by
  -- All rules for selections start with the same keyword.
  cases spans <;> rfl

/-- Every phrase that fits is read as the statements it stands for. -/
theorem BodyPhrase.Spans.completes {phrase : BodyPhrase} (spans : phrase.Spans room tokens rest) :
    phrase.Completes room tokens rest := by
  -- Along the derivation; an `else` would be taken for what ends without one.
  induction spans with
  | declare free =>
    intro _
    rw [statement_declaration]
    simp [localDeclaration, dataType, Source.name, free, Outcome.ofResult]
  | initialise free initial =>
    intro _
    -- The initial value reaches up to the semicolon.
    have readInitial := expression_complete initial (endsExpression_semicolon _ _)
    rw [statement_declaration]
    simp [localDeclaration, dataType, Source.name, free, readInitial, Outcome.ofResult]
  | assign target assignable value =>
    intro _
    -- The target reaches up to the operator, and the value up to the semicolon.
    have readTarget := expression_complete target (endsExpression_assign _ _ _)
    have readValue := expression_complete value (endsExpression_semicolon _ _)
    rw [statement_expression (target.starts trivial)]
    simp [assignment, readTarget, assignable, readValue, Outcome.ofResult]
  | evaluate e =>
    intro _
    -- A semicolon is no assignment, so that the value is not stored.
    have read := expression_complete e (endsExpression_semicolon _ _)
    rw [statement_expression (e.starts trivial)]
    simp [assignment, read, headAssign?, AssignOp.ofSymbol?, Outcome.ofResult]
  | discard | leave => exact fun _ => rfl
  | selected spans ih =>
    intro noElse
    simp [Source.statement, spans.startsSelection, ih noElse, Outcome.ofResult]
  | tested spans ih =>
    intro noElse
    rw [statement_conditional spans.startsConditional]
    exact ih noElse
  | ifThen condition _ yes =>
    intro noElse
    -- The next word is no `else`, so that there is no other block.
    have readCondition := expression_complete condition (endsExpression_rightParen _ _)
    have readYes : (bodyParsers _).block _ = _ := yes
    simp [Source.selection, readCondition, readYes, noElse]
  | ifThenElse condition _ spansNo yes no =>
    intro noElse
    -- A block does not start with the keyword of a selection, so it is read as one.
    have readCondition := expression_complete condition (endsExpression_rightParen _ _)
    have readYes : (bodyParsers _).block _ = _ := yes
    have readNo : (bodyParsers _).block _ = _ := no
    cases spansNo with
    | block => simp [Source.selection, readCondition, readYes, readNo]
  | ifElseIf condition _ spansNo yes no =>
    intro noElse
    -- The selection after `else` is nested, and is read on the level below.
    have readCondition := expression_complete condition (endsExpression_rightParen _ _)
    have readYes : (bodyParsers _).block _ = _ := yes
    have readNo : (bodyParsers (_ + 1)).selection _ = _ := no noElse
    simp [Source.selection, readCondition, readYes, readNo, spansNo.startsSelection]
  | conditional free spansYes _ yes no =>
    intro noElse
    exact conditional_eq _ _ _ _ free (yes _ (Nat.le_refl _)) (no noElse)
  | block _ ih =>
    -- The words of a block are those up to the brace that closes it.
    have read := ih _ (Nat.le_refl _)
    exact toResult_eq_ok.mpr (by rw [braced_sign, read])
  | endBlock | endRegion => exact fun limit _ => untilBrace_close limit _ _
  | nextInBlock spansFirst spansMore first more =>
    intro limit enough
    obtain ⟨less, rfl, enoughMore⟩ := limit_step spansFirst.length_le enough
    exact untilBrace_next (spansFirst.starts trivial) (first (noElse_of_blockEnd spansMore))
      (more less enoughMore)
  | nextInRegion spansFirst spansMore first more =>
    intro limit enough
    obtain ⟨less, rfl, enoughMore⟩ := limit_step spansFirst.length_le enough
    exact untilBrace_next (spansFirst.starts trivial) (first (noElse_of_region spansMore))
      (more less enoughMore)
  | without => exact fun noElse => alternative_without noElse
  | otherwise _ ih =>
    intro _
    rw [alternative_braced _ (by rfl), braced_sign]
    exact ih _ (Nat.le_refl _)
  | chained spans ih =>
    intro noElse
    rw [alternative_chained _ spans.startsConditional]
    exact ih noElse

end Shading.Grammar

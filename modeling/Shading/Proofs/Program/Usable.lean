import Shading.Proofs.Grammar.ExprComplete
import Shading.Proofs.Program.WellFormed

/-! What is declared can be used in expressions, unless it is named like a type. -/

namespace Shading

namespace Grammar

open Source

variable {room : Nat} {tokens rest : List Token}

/-- An operand that nothing goes on with is a whole expression. -/
theorem expression_of_operand {e : Expr} (read : operandReader room tokens = .ok (e, rest))
    (ends : EndsExpression rest) : Source.expression (room + 1) tokens = .ok (e, rest) := by
  -- Neither an operator nor a question mark follows, so that all levels end with the operand.
  have head : LooserHead 1 rest := by
    intro op met
    rw [ends.noBinary] at met
    cases met
  have climbed : climb (operandReader room) room BinaryOp.levels 1 tokens = .ok (e, rest) := by
    rw [climb_single read (Nat.le_of_eq (Nat.add_comm _ _)), chain_stop head]
  simp [Source.expression, exprParsers, ternary, climbed, ends.noChoice]

/-- An expression is at fault where its first operand is. -/
theorem expression_of_fault {fault : GrammarError}
    (failed : operandReader room tokens = .error fault) :
    Source.expression (room + 1) tokens = .error fault := by
  -- Every level reads its first operand first.
  have climbed : climb (operandReader room) room BinaryOp.levels 1 tokens = .error fault := by
    rw [BinaryOp.levels, climb, failed]
    rfl
  simp only [Source.expression, exprParsers, ternary, climbed]
  rfl

/-- A name behind which a source ends is an operand, or not even the start of one. -/
theorem operandReader_name {name : String} {line : Nat} (free : isReserved name = false)
    (ends : NoSuffix rest) :
    operandReader room (word name line :: rest) =
      if (DataType.ofKeyword? name).isSome then unexpected .expression (word name line :: rest)
      else .ok (.variable name, rest) := by
  -- Nothing behind the name makes a call or a suffix of it.
  have noCall : startsWith .leftParen rest = false := ends .leftParen (by simp)
  have unsigned : headUnary? (word name line :: rest) = none := rfl
  have read : Source.primary (exprParsers room).expression (word name line :: rest) =
      if (DataType.ofKeyword? name).isSome then unexpected .expression (word name line :: rest)
      else .ok (.variable name, rest) := by
    simp [Source.primary, free, noCall]
  -- There is no operator in front either, so that the name is read as a primary expression.
  rw [operandReader, unary, unsigned]
  simp only [read]
  split
  · rfl
  · exact suffixes_stop ends _ _

end Grammar

/-- Reads the expression that a text starts with, and gives the words behind it as well. -/
def expressionOf (text : String) : Except ParseError (Expr × List Token) := do
  let tokens ← (tokenize text).mapError .lexical
  (Source.expression maxNesting tokens).mapError .grammar

/-- A name alone is a variable, unless it is the keyword of a type. -/
theorem expressionOf_name {name : String} (isName : IsName name) (free : isReserved name = false) :
    expressionOf name =
      if (DataType.ofKeyword? name).isSome then
        .error (.grammar ⟨1, .unexpected .expression (.identifier name)⟩)
      else .ok (.variable name, [⟨.endOfFile, 1⟩]) := by
  -- The text is cut into the name and the end behind it.
  have cut : tokenize name = .ok [Grammar.word name 1, ⟨.endOfFile, 1⟩] := by
    have next : Cursor.next ⟨name.toList ++ [], 1⟩ = ⟨.ok (Grammar.word name 1), ⟨[], 1⟩⟩ :=
      Cursor.next_name isName (by simp [Cursor.EndsRun])
    rw [List.append_nil] at next
    exact tokenize_eq_ok (.next next rfl .none)
  have ends : Grammar.EndsExpression [⟨.endOfFile, 1⟩] :=
    ⟨by simp [Grammar.NoSuffix, Source.startsWith, Source.headToken], rfl, rfl⟩
  have read : expressionOf name =
      (Source.expression (127 + 1) [Grammar.word name 1, ⟨.endOfFile, 1⟩]).mapError .grammar := by
    rw [expressionOf, cut]
    rfl
  -- One level is taken for the expression, and the name needs none.
  have operand := @Grammar.operandReader_name 127 _ _ 1 free ends.noSuffix
  rw [read]
  split at operand
  · rw [if_pos ‹_›, Grammar.expression_of_fault operand]
    rfl
  · rw [if_neg ‹_›, Grammar.expression_of_operand operand ends]
    rfl

namespace Program

/-- A name is declared outside of stages, or at any depth of a body. -/
def Declares (program : Program) (word : String) : Prop :=
  program.Uses .declared word ∨ program.Uses .inBody word

variable {program : Program} {name source word : String} {defines : Defines}

/--
What a program declares is a variable where its name stands alone, unless it is named like a type.

The keyword of a type can be declared, but it is refused where an expression is expected.
-/
theorem expressionOf_declared (parsed : parse name defines source = .ok program)
    (declared : program.Declares word) :
    (DataType.ofKeyword? word = none →
      expressionOf word = .ok (.variable word, [⟨.endOfFile, 1⟩])) ∧
    ∀ type, DataType.ofKeyword? word = some type →
      expressionOf word = .error (.grammar ⟨1, .unexpected .expression (.identifier word)⟩) := by
  -- A declared word is a name without a meaning of its own, so that it is read as a name is.
  have named : IsName word ∧ isReserved word = false := by
    rcases declared with outside | inBody
    · exact isName_of_uses parsed outside
    · exact isName_of_uses parsed inBody
  have read := expressionOf_name named.1 named.2
  constructor
  · intro untyped
    simpa [untyped] using read
  · intro type typed
    simpa [typed] using read

/-- A name that is declared in a nested block is a variable. -/
theorem expressionOf_declared_nested :
    ∃ program, parse "nested" .empty
        "uniform float a; fragment \x7b if (a < 1) \x7b vec2 b = vec2(a, 2); x = b.y; \x7d \x7d" =
          .ok program ∧
      program.Declares "b" ∧ DataType.ofKeyword? "b" = none ∧
      expressionOf "b" = .ok (.variable "b", [⟨.endOfFile, 1⟩]) := by
  have parsed : parse "nested" .empty
      "uniform float a; fragment \x7b if (a < 1) \x7b vec2 b = vec2(a, 2); x = b.y; \x7d \x7d" =
        .ok _ := rfl
  refine ⟨_, parsed, ?declared, rfl, (expressionOf_declared parsed ?declared).1 rfl⟩
  -- The declaration stands behind the choice that it is nested in.
  exact .inr (.inBody (d := ⟨.vec2, "b"⟩) ⟨.fragment, _, rfl, .tail _ (.head _)⟩)

/-- The keyword of a type is declared as a uniform, where it names nothing that can be used. -/
theorem declared_keyword_unusable :
    ¬ ∀ name source defines program word, parse name defines source = .ok program →
      program.Declares word → expressionOf word = .ok (.variable word, [⟨.endOfFile, 1⟩]) := by
  -- One keyword is enough, declared as the only uniform.
  intro usable
  have parsed : parse "typed" .empty "uniform vec4 float;" = .ok _ := rfl
  have read := usable _ _ _ _ "float" parsed (.inl (.uniform (d := ⟨.vec4, "float"⟩) (.head _)))
  have refused : expressionOf "float" =
      .error (.grammar ⟨1, .unexpected .expression (.identifier "float")⟩) := rfl
  rw [refused] at read
  cases read

end Program

end Shading

import Shading.Proofs.Glsl.Literals
import Shading.Proofs.Glsl.Reads
import Shading.Proofs.Language.Validity

/-! Written expressions have parentheses where the grammar needs them, and are read as themselves. -/

namespace Shading

mutual

/-- An expression with the names that its calls are written with in GLSL. -/
def Expr.renamed : Expr → Expr
  | .unary op operand => .unary op operand.renamed
  | .binary op left right => .binary op left.renamed right.renamed
  | .ternary condition yes no => .ternary condition.renamed yes.renamed no.renamed
  | .call name arguments => .call (Glsl.callee name) (renamedAll arguments)
  | .field object name => .field object.renamed name
  | .index object position => .index object.renamed position.renamed
  | literal => literal

/-- Expressions with the names that their calls are written with in GLSL. -/
def renamedAll : List Expr → List Expr
  | [] => []
  | e :: es => e.renamed :: renamedAll es

end

namespace Glsl

open Cursor Grammar ExprPhrase

/-- The tightest level of operators that an expression is an operand of, with none for a choice. -/
def tightness : Expr → Nat
  | .ternary _ _ _ => 0
  | .binary op _ _ => op.precedence
  | _ => BinaryOp.levels + 1

/-- GLSL and the grammar order the operators alike. -/
theorem binaryRank_lt_binaryRank (op other : BinaryOp) :
    binaryRank op < binaryRank other ↔ other.precedence < op.precedence := by
  -- There are finitely many pairs of operators, each of which is compared.
  cases op <;> cases other <;> decide

/-- An operator is looser than what is not joined by one, and tighter than a choice. -/
theorem binaryRank_bounds (op : BinaryOp) : unaryRank < binaryRank op ∧ binaryRank op < ternaryRank := by
  -- There are as many cases as operators.
  cases op <;> decide

/-- GLSL puts parentheses around the left operand of an operator exactly when the grammar needs them. -/
theorem binaryRank_lt_rank (op : BinaryOp) (e : Expr) :
    binaryRank op < rank e ↔ tightness e < op.precedence := by
  -- Both scales run in opposite directions and agree on operators; all other kinds are at an end.
  have inGrammar := op.precedence_bounds
  have inGlsl := binaryRank_bounds op
  cases e with
  | binary other => exact binaryRank_lt_binaryRank op other
  | ternary => simp only [rank, tightness]; omega
  | _ => simp only [rank, tightness, suffixRank, unaryRank] at *; omega

/-- GLSL puts parentheses around the right operand of an operator exactly when the grammar needs them. -/
theorem binaryRank_le_rank (op : BinaryOp) (e : Expr) :
    binaryRank op ≤ rank e ↔ tightness e < op.precedence + 1 := by
  have inGrammar := op.precedence_bounds
  have inGlsl := binaryRank_bounds op
  cases e with
  | binary other =>
    -- The other way round, this is the order of the two operators.
    have order := binaryRank_lt_binaryRank other op
    simp only [rank, tightness]
    omega
  | ternary => simp only [rank, tightness]; omega
  | _ => simp only [rank, tightness, suffixRank, unaryRank] at *; omega

/-- GLSL puts parentheses around the condition of a choice exactly when the grammar needs them. -/
theorem ternaryRank_le_rank (e : Expr) : ternaryRank ≤ rank e ↔ tightness e < 1 := by
  -- Every operator is tighter than a choice on both scales.
  cases e with
  | binary op =>
    have inGrammar := op.precedence_bounds
    have inGlsl := binaryRank_bounds op
    simp only [rank, tightness]
    omega
  | _ => simp [rank, tightness, suffixRank, unaryRank, ternaryRank, BinaryOp.levels]

/-- The phrase of the grammar that an expression without parentheses is before any looser one. -/
def phrase (count : Nat) (e : Expr) : ExprPhrase :=
  match e with
  | .ternary _ _ _ => .expression e.renamed
  | .binary op _ _ => .joined op.precedence count e.renamed
  | .unary _ _ => .operand e.renamed
  | _ => .suffixed e.renamed

/-- What must follow an expression for its last word to end there. -/
def Follows : Expr → List Char → Prop
  | .int _ | .unary _ _ | .binary _ _ _ | .ternary _ _ _ => EndsWords
  | _ => EndsRun

/-- Where every word has to end, any expression does. -/
theorem follows_of_endsWords (e : Expr) {after : List Char} (ends : EndsWords after) :
    Follows e after := by
  -- An expression asks at most that words and numbers end.
  cases e <;> first | exact ends | exact ends.run

/-- Of what suffixes can follow, only an integer would go on with a point. -/
theorem follows_of_endsRun {e : Expr} (tight : rank e ≤ suffixRank) (noInteger : ∀ value, e ≠ .int value)
    {after : List Char} (ends : EndsRun after) : Follows e after := by
  -- What is looser than a suffix is excluded by its rank.
  cases e with
  | int value => exact absurd rfl (noInteger value)
  | unary | ternary => simp [rank, suffixRank, unaryRank, ternaryRank] at tight
  | binary op =>
    have looser := binaryRank_bounds op
    simp only [rank, suffixRank, unaryRank] at *
    omega
  | _ => exact ends

/-- The marks of an expression are read as the expression with renamed calls. -/
def ReadsBack (line : Nat) (e : Expr) : Prop :=
  ∃ count, ReadsAs line (Follows e) (exprMarks e) (phrase count e)

namespace ReadsBack

variable {line : Nat} {e : Expr}

/-- An expression reads back where every word has to end. -/
theorem beforeEnd (reads : ReadsBack line e) :
    ∃ count, ReadsAs line EndsWords (exprMarks e) (phrase count e) := by
  -- The condition of the expression is weakened to the one that suits all expressions.
  obtain ⟨count, reads⟩ := reads
  exact ⟨count, reads.before fun after ends => follows_of_endsWords e ends⟩

/-- A literal, a name, a call, a field or an index reads back as what suffixes can follow. -/
theorem suffixed (reads : ReadsBack line e) (tight : rank e ≤ suffixRank) :
    ReadsAs line (Follows e) (exprMarks e) (.suffixed e.renamed) := by
  obtain ⟨count, reads⟩ := reads
  -- Operators bind looser than any suffix.
  cases e with
  | unary | ternary => simp [rank, suffixRank, unaryRank, ternaryRank] at tight
  | binary op =>
    have := binaryRank_bounds op
    simp only [rank, suffixRank, unaryRank] at *
    omega
  | _ => exact reads

/-- An operator before its operand reads back as an operand, and so does whatever binds tighter. -/
theorem operand (reads : ReadsBack line e) (tight : rank e ≤ unaryRank) :
    ReadsAs line EndsWords (exprMarks e) (.operand e.renamed) := by
  obtain ⟨count, reads⟩ := reads.beforeEnd
  cases e with
  | ternary => simp [rank, unaryRank, ternaryRank] at tight
  | binary op =>
    have := binaryRank_bounds op
    simp only [rank] at *
    omega
  | unary => exact reads
  -- What suffixes can follow is an operand that no operator stands before.
  | _ => exact reads.become fun spans => .unsigned spans.step

/-- An expression reads back as operands of every level that is no tighter than the expression. -/
theorem joined (reads : ReadsBack line e) {level : Nat} (positive : 1 ≤ level)
    (tight : level ≤ tightness e) :
    ∃ count, ReadsAs line EndsWords (exprMarks e) (.joined level count e.renamed) := by
  obtain ⟨count, bare⟩ := reads.beforeEnd
  cases e with
  | ternary =>
    simp only [tightness] at tight
    omega
  | binary => exact ⟨count, bare.become fun spans => spans.step.looser tight⟩
  | _ =>
    -- A single operand joins nothing.
    have operand := reads.operand (by simp [rank, suffixRank, unaryRank])
    exact ⟨0, operand.become fun spans => (Spans.single spans.step).looser tight⟩

/-- An expression reads back as a whole. -/
theorem expression (reads : ReadsBack line e) :
    ReadsAs line EndsWords (exprMarks e) (.expression e.renamed) := by
  -- A choice is an expression of its own, and all else is one without a choice.
  cases e with
  | ternary => exact reads.beforeEnd.choose_spec
  | binary op =>
    obtain ⟨count, joined⟩ := reads.joined (Nat.le_refl 1) op.precedence_bounds.1
    exact joined.become .plain
  | _ =>
    obtain ⟨count, joined⟩ := reads.joined (Nat.le_refl 1) (Nat.le_add_left 1 _)
    exact joined.become .plain

/-- An operand of a level reads back, with parentheses around it if it is looser. -/
theorem wrapJoined (reads : ReadsBack line e) {level : Nat} {needed : Bool}
    (bounds : 1 ≤ level ∧ level ≤ BinaryOp.levels + 1)
    (agrees : needed = false → level ≤ tightness e) :
    ∃ count, ReadsAs line EndsWords (wrap needed (exprMarks e)) (.joined level count e.renamed) := by
  -- Parentheses make a primary of it, which belongs to every level.
  cases needed with
  | true =>
    refine ⟨0, reads.expression.wrap (fun spans => ?_) (by simp)⟩
    exact (Spans.single (.unsigned (.bare spans.step))).looser bounds.2
  | false => exact reads.joined bounds.1 (agrees rfl)

/-- An operand behind an operator reads back, with parentheses around it if it is looser. -/
theorem wrapOperand (reads : ReadsBack line e) {needed : Bool}
    (agrees : needed = false → rank e ≤ unaryRank) :
    ReadsAs line EndsWords (wrap needed (exprMarks e)) (.operand e.renamed) :=
  -- Parentheses make a primary of it, which is an operand.
  reads.expression.wrap (fun spans => .unsigned (.bare spans.step)) fun bare =>
    reads.operand (agrees bare)

/-- The object of a suffix reads back, with parentheses around it if it is looser. -/
theorem wrapSuffixed (reads : ReadsBack line e) {needed : Bool} {follow : List Char → Prop}
    (agrees : needed = false → rank e ≤ suffixRank)
    (follows : needed = false → ∀ after, follow after → Follows e after) :
    ReadsAs line follow (wrap needed (exprMarks e)) (.suffixed e.renamed) :=
  -- Parentheses make a primary of it, which takes suffixes whatever follows.
  reads.expression.wrap (fun spans => .bare spans.step) fun bare =>
    (reads.suffixed (agrees bare)).before (follows bare)

end ReadsBack

end Glsl

end Shading

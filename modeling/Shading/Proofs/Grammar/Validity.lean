import Shading.Proofs.Grammar.Accepts
import Shading.Proofs.Language.Validity

/-! What the grammar makes of valid words is valid, and how a source becomes a program. -/

namespace Shading.Grammar

open Source

variable {room : Nat} {tokens rest : List Token}

/-- All words hold what words can hold. -/
def AllValid (tokens : List Token) : Prop :=
  ∀ token ∈ tokens, token.lexeme.IsValid

/-- The first of several valid words and the others are valid. -/
@[simp] theorem allValid_cons {token : Token} :
    AllValid (token :: tokens) ↔ token.lexeme.IsValid ∧ AllValid tokens := by
  -- A property of all members of a list holds of its head and of its tail.
  simp [AllValid]

/-- What remains of valid words is valid. -/
theorem Remains.allValid (remains : Remains rest tokens) (valid : AllValid tokens) :
    AllValid rest := by
  -- The remaining words are a suffix of the others.
  obtain ⟨words, rfl, -⟩ := remains
  exact fun token member => valid token (List.mem_append_right words member)

/-- The tree of a phrase is valid, or all trees of a list are. -/
def ExprPhrase.IsValid : ExprPhrase → Prop
  | .expression e | .joined _ _ e | .operand e | .suffixed e | .primary e => e.Valid
  | .arguments es | .moreArguments es => ∀ e ∈ es, e.Valid

/-- Valid words make valid expressions. -/
theorem ExprPhrase.Spans.valid {phrase : ExprPhrase} (spans : phrase.Spans room tokens rest)
    (valid : AllValid tokens) : phrase.IsValid := by
  -- The words of each part are among those that the parts before it leave.
  induction spans with
  | plain _ ih | single _ ih | tighter _ ih | unsigned _ ih | bare _ ih => exact ih valid
  | ternary spansCondition spansYes _ condition yes no =>
    have afterCondition := (allValid_cons.mp (spansCondition.remains.allValid valid)).2
    have afterYes := (allValid_cons.mp (spansYes.remains.allValid afterCondition)).2
    exact .ternary (condition valid) (yes afterCondition) (no afterYes)
  | join spansLeft _ _ left right =>
    have afterLeft := (allValid_cons.mp (spansLeft.remains.allValid valid)).2
    exact .binary (left valid) (right afterLeft)
  | signed _ ih => exact .unary (ih (allValid_cons.mp valid).2)
  | construct _ ih =>
    exact .construct (ih (allValid_cons.mp (allValid_cons.mp valid).2).2)
  | call spansCallee _ callee arguments =>
    have afterCallee := (allValid_cons.mp (spansCallee.remains.allValid valid)).2
    -- Only a name can be called.
    cases callee valid with
    | named isName free untyped => exact .call isName free untyped (arguments afterCallee)
  | field spansObject free object =>
    have afterDot := (allValid_cons.mp (spansObject.remains.allValid valid)).2
    exact .field (object valid) (allValid_cons.mp afterDot).1 free
  | index spansObject _ object position =>
    have afterObject := (allValid_cons.mp (spansObject.remains.allValid valid)).2
    exact .index (object valid) (position afterObject)
  | int => exact .int (allValid_cons.mp valid).1
  | float =>
    obtain ⟨finite, unsigned⟩ := (allValid_cons.mp valid).1
    exact .float finite unsigned
  | bool => exact .bool
  -- That a name is none of a type was checked when it was read.
  | named free untyped => exact .named (allValid_cons.mp valid).1 free untyped
  | parenthesised _ ih => exact ih (allValid_cons.mp valid).2
  | noArguments | endArguments => simp [IsValid]
  -- Each argument starts where the one before it ends.
  | firstArgument spansFirst _ first more =>
    have afterFirst := spansFirst.remains.allValid valid
    exact List.forall_mem_cons.mpr ⟨first valid, more afterFirst⟩
  | nextArgument spansNext _ next more =>
    have here := (allValid_cons.mp valid).2
    have afterNext := spansNext.remains.allValid here
    exact List.forall_mem_cons.mpr ⟨next here, more afterNext⟩

/-- What is read as a program is cut into words that are read to their end, and then declared. -/
theorem parse_eq_ok {name source : String} {defines : Defines} {program : Program}
    (parsed : Program.parse name defines source = .ok program) :
    ∃ tokens draft rest, tokenize source = .ok tokens ∧
      (sourceItems maxNesting tokens).rest = .ok rest ∧
      Draft.declareAll ⟨.empty name defines, false⟩
        (activeItems defines.isDefined (sourceItems maxNesting tokens).completed) = .ok draft ∧
      draft.program = program := by
  -- A source that cannot be cut into words is no program.
  cases cut : tokenize source with
  | error fault =>
    unfold Program.parse at parsed
    rw [cut] at parsed
    cases parsed
  | ok tokens =>
    rw [parse_eq_ofTokens cut, ofTokens_eq] at parsed
    -- A fault in the declarations comes before one in the words that were not read.
    split at parsed
    · cases parsed
    · rename_i draft declared
      split at parsed
      · cases parsed
      · rename_i rest whole
        exact ⟨tokens, draft, rest, rfl, whole, declared, Except.ok.inj parsed⟩

end Shading.Grammar

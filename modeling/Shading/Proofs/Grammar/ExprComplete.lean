import Shading.Proofs.Grammar.ExprSound

/-! Every expression of the grammar is read as the tree it stands for, where it fits. -/

namespace Shading.Grammar

open Source ExprPhrase

variable {room : Nat} {deeper nested : Parser Expr} {tokens rest : List Token}

/-- What remains is no call, field or index of what was read. -/
def NoSuffix (tokens : List Token) : Prop :=
  ∀ symbol ∈ [Symbol.leftParen, .dot, .leftBracket], startsWith symbol tokens = false

/-- What remains cannot go on with the expression that was read. -/
structure EndsExpression (tokens : List Token) : Prop where
  noSuffix : NoSuffix tokens
  noBinary : headBinary? tokens = none
  noChoice : startsWith .question tokens = false

/-- The symbols that stand behind expressions end them. -/
theorem endsExpression_sign {symbol : Symbol} (line : Nat) (rest : List Token)
    (ends : symbol ∉ [Symbol.leftParen, .dot, .leftBracket, .question])
    (between : BinaryOp.ofSymbol? symbol = none) : EndsExpression (sign symbol line :: rest) := by
  simp only [List.mem_cons, List.not_mem_nil, or_false, not_or] at ends
  refine ⟨?_, between, ?_⟩
  · -- None of the symbols at the end is one that a suffix begins with.
    simp [NoSuffix, ends]
  · simp [ends]

/-- An operator between operands is no suffix of the left one. -/
theorem noSuffix_binary (op : BinaryOp) (line : Nat) (rest : List Token) :
    NoSuffix (sign op.symbol line :: rest) := by
  -- Suffixes start with a parenthesis, a point or a bracket, and none of these is an operator.
  cases op <;> simp [NoSuffix, BinaryOp.symbol]

/-- Operators that bind as loosely as one on the left are not operators of its right operand. -/
theorem looserHead_binary (op : BinaryOp) (line : Nat) (rest : List Token) :
    LooserHead (op.precedence + 1) (sign op.symbol line :: rest) := by
  intro other met
  -- The head is the operator itself, whose level is the one below.
  rw [headBinary?_sign] at met
  cases met
  exact Nat.lt_succ_self _

/-- An expression that no suffix follows is complete. -/
theorem suffixes_stop (noSuffix : NoSuffix rest) (limit : Nat) (object : Expr) :
    suffixes nested limit object rest = .ok (object, rest) := by
  -- Neither of the three ways to go on applies, whatever is left of the limit.
  cases limit with
  | zero => rfl
  | succ limit =>
    simp only [NoSuffix, List.mem_cons, List.not_mem_nil, or_false, forall_eq_or_imp, forall_eq,
      startsWith, beq_eq_false_iff_ne] at noSuffix
    obtain ⟨noParen, noDot, noBracket⟩ := noSuffix
    simp only [suffixes]

/-- Joined operands that a looser operator follows, or none, are complete. -/
theorem chain_stop {tighter : Nat → Parser Expr} {least : Nat} (head : LooserHead least rest)
    (further : Nat) (left : Expr) : chain tighter least further left rest = .ok (left, rest) := by
  unfold chain
  -- With no operator the loop ends, and so it does before one of a looser level.
  split
  · rfl
  · rename_i op met
    rw [if_pos (head op met)]

/-- What follows an argument ends it. -/
theorem ends_of_moreArguments {es : List Expr}
    (spans : (ExprPhrase.moreArguments es).Spans room tokens rest) : EndsExpression tokens := by
  -- Behind an argument there is a comma or a parenthesis, and neither goes on with it.
  cases spans with
  | endArguments => exact endsExpression_sign _ _ (by decide) rfl
  | nextArgument => exact endsExpression_sign _ _ (by decide) rfl

/-- The reader of operands in expressions of a number of levels. -/
abbrev operandReader (room : Nat) : Parser Expr :=
  unary (exprParsers room).operand (exprParsers room).expression

/-- What the readers of expressions do with the words that a phrase spans. -/
def Completes (room : Nat) : ExprPhrase → List Token → List Token → Prop
  | .expression e, tokens, rest =>
    EndsExpression rest → (exprParsers room).expression tokens = .ok (e, rest)
  -- After the phrase, the climbing goes on with as many operators as still fit.
  | .joined level count e, tokens, rest =>
    NoSuffix rest → LooserHead (level + 1) rest → ∀ least levels, least ≤ level →
      BinaryOp.levels + 1 ≤ least + levels →
      climb (operandReader room) room levels least tokens =
        chain (climb (operandReader room) room (levels - 1)) least (room - count) e rest
  | .operand e, tokens, rest =>
    NoSuffix rest → operandReader room tokens = .ok (e, rest)
  -- The limit of the suffixes is never met before the words are.
  | .suffixed e, tokens, rest =>
    ∃ limit, rest.length ≤ limit ∧
      operandReader room tokens = suffixes (exprParsers room).expression limit e rest
  | .primary e, tokens, rest =>
    headUnary? tokens = none ∧
      Source.primary (exprParsers room).expression tokens = .ok (e, rest)
  | .arguments es, tokens, rest =>
    Source.arguments (exprParsers room).expression tokens = .ok (es, rest)
  | .moreArguments es, tokens, rest =>
    ∀ limit, tokens.length ≤ limit →
      Source.moreArguments (exprParsers room).expression limit tokens = .ok (es, rest)

/-- Operands that no operator follows are read as a whole. -/
theorem climb_complete {level count : Nat} {e : Expr}
    (completes : Completes room (.joined level count e) tokens rest) (noSuffix : NoSuffix rest)
    (head : LooserHead level rest) (levels : Nat) (enough : BinaryOp.levels + 1 ≤ level + levels) :
    climb (operandReader room) room levels level tokens = .ok (e, rest) := by
  -- Climbing starts with the left operand, and the chain behind it stops at once.
  have looser : LooserHead (level + 1) rest := fun op met => Nat.lt_succ_of_lt (head op met)
  rw [completes noSuffix looser level levels (Nat.le_refl _) enough, chain_stop head]

/-- Before an operator, an operand is all that is climbed. -/
theorem climb_single {e : Expr} (read : operandReader room tokens = .ok (e, rest))
    {least levels : Nat} (enough : BinaryOp.levels + 1 ≤ least + levels) :
    climb (operandReader room) room levels least tokens =
      chain (climb (operandReader room) room (levels - 1)) least room e rest := by
  cases levels with
  | zero =>
    -- No operator binds tightly enough to go on.
    have head : LooserHead least rest := fun op _ => by
      have := op.precedence_bounds
      omega
    rw [chain_stop head]
    exact read
  | succ levels => simp [climb, read]

/-- An operator that binds tightly enough takes the operands on its right into the chain. -/
theorem chain_join {op : BinaryOp} {count count' : Nat} {left right : Expr} {line : Nat}
    {afterLeft : List Token}
    (completes : Completes room (.joined (op.precedence + 1) count' right) afterLeft rest)
    (noSuffix : NoSuffix rest) (head : LooserHead (op.precedence + 1) rest) (fits : count < room)
    {least levels : Nat} (tight : least ≤ op.precedence)
    (enough : BinaryOp.levels + 1 ≤ least + levels) :
    chain (climb (operandReader room) room (levels - 1)) least (room - count) left
        (sign op.symbol line :: afterLeft) =
      chain (climb (operandReader room) room (levels - 1)) least (room - (count + 1))
        (.binary op left right) rest := by
  -- The room loses an operator, and the parser of the level above reads the right operand.
  have bounds := op.precedence_bounds
  have readRight := climb_complete completes noSuffix head (levels - 1) (by omega)
  obtain ⟨further, remains⟩ : ∃ further, room - count = further + 1 := ⟨room - count - 1, by omega⟩
  rw [remains, show room - (count + 1) = further by omega, chain]
  simp [show ¬ op.precedence < least by omega, readRight]

/-- A name in front of a parenthesis is called. -/
theorem suffixes_call {callee : String} {es : List Expr} {line limit : Nat}
    {afterCallee : List Token} (read : Source.arguments nested afterCallee = .ok (es, rest)) :
    suffixes nested (limit + 1) (.variable callee) (sign .leftParen line :: afterCallee) =
      suffixes nested limit (.call callee es) rest := by
  -- The parenthesis in front makes the next suffix a call.
  simp [suffixes, read]

/-- A name behind a point is a field. -/
theorem suffixes_field {object : Expr} {name : String} {line line' limit : Nat}
    (free : isReserved name = false) :
    suffixes nested (limit + 1) object (sign .dot line :: word name line' :: rest) =
      suffixes nested limit (.field object name) rest := by
  -- The point in front makes the next suffix a field.
  simp [suffixes, Source.name, free]

/-- An expression in brackets is an index. -/
theorem suffixes_index {object position : Expr} {line line' limit : Nat} {afterObject : List Token}
    (read : nested afterObject = .ok (position, sign .rightBracket line' :: rest)) :
    suffixes nested (limit + 1) object (sign .leftBracket line :: afterObject) =
      suffixes nested limit (.index object position) rest := by
  -- The bracket in front makes the next suffix an index.
  simp [suffixes, read]

/-- Every phrase that fits is read as the tree it stands for. -/
theorem completes {phrase : ExprPhrase} (spans : phrase.Spans room tokens rest) :
    Completes room phrase tokens rest := by
  -- Along the derivation; what is joined or suffixed is followed by the loop that goes on with it.
  induction spans with
  | plain _ ih =>
    -- All operators are climbed, and no question follows.
    intro ends
    have readAll := climb_complete ih ends.noSuffix (by simp [LooserHead, ends.noBinary])
      BinaryOp.levels (by decide)
    simp [exprParsers, ternary, readAll, ends.noChoice]
  | ternary _ _ _ condition yes no =>
    -- A question and a colon end what stands before them.
    intro ends
    have readCondition := climb_complete condition (by simp [NoSuffix])
      (by simp [LooserHead, headBinary?, BinaryOp.ofSymbol?]) BinaryOp.levels (by decide)
    have readYes := yes (endsExpression_sign _ _ (by decide) rfl)
    have readNo := no ends
    simp [exprParsers, ternary, readCondition, readYes, readNo]
  | single _ ih =>
    intro noSuffix _ least levels _ enough
    exact climb_single (ih noSuffix) enough
  | tighter _ ih =>
    -- What is joined on a level is climbed from there or from any looser one.
    intro noSuffix head least levels loose enough
    refine ih noSuffix (fun op met => ?_) least levels (by omega) enough
    exact Nat.lt_succ_of_lt (head op met)
  | join _ _ fits left right =>
    -- The climbing of the left operands stops at the operator, where the chain takes it.
    intro noSuffix head least levels tight enough
    rw [left (noSuffix_binary _ _ _) (looserHead_binary _ _ _) least levels tight enough]
    exact chain_join right noSuffix head fits tight enough
  | @signed _ op _ _ _ _ _ ih =>
    intro noSuffix
    have read := ih noSuffix
    -- The operand is read on a level less, whose reader is the one kept for operands.
    have deeper : (exprParsers (_ + 1)).operand _ = _ := read
    simp [operandReader, unary, deeper]
  | unsigned _ ih =>
    intro noSuffix
    -- However much of the limit is left, no suffix follows.
    obtain ⟨limit, -, read⟩ := ih
    rw [read, suffixes_stop noSuffix]
  | @bare _ _ _ rest _ ih =>
    obtain ⟨unsigned, read⟩ := ih
    refine ⟨rest.length, Nat.le_refl _, ?_⟩
    simp [operandReader, unary, unsigned, read]
  | @construct _ _ _ _ _ tokens _ spans ih =>
    -- The parenthesis behind it lets the keyword through, which is then called like a name.
    have read : Source.arguments (exprParsers _).expression tokens = _ := ih
    refine ⟨tokens.length, Nat.le_of_lt spans.shorter, ?_⟩
    simp [operandReader, unary, headUnary?, Source.primary, suffixes, read]
  | call _ spansArguments callee arguments =>
    obtain ⟨limit, enough, read⟩ := callee
    obtain ⟨less, rfl, enoughMore⟩ := limit_step (Nat.lt_succ_of_lt spansArguments.shorter) enough
    exact ⟨less, enoughMore, by rw [read, suffixes_call arguments]⟩
  | field _ free object =>
    obtain ⟨limit, enough, read⟩ := object
    obtain ⟨less, rfl, enoughMore⟩ := limit_step (Nat.lt_succ_self _) enough
    exact ⟨less, Nat.le_of_succ_le enoughMore, by rw [read, suffixes_field free]⟩
  | index _ spansPosition object position =>
    have readPosition := position (endsExpression_sign _ _ (by decide) rfl)
    obtain ⟨limit, enough, read⟩ := object
    have fewer := Nat.lt_trans (Nat.lt_succ_self _) spansPosition.shorter
    obtain ⟨less, rfl, enoughMore⟩ := limit_step (Nat.lt_succ_of_lt fewer) enough
    exact ⟨less, enoughMore, by rw [read, suffixes_index readPosition]⟩
  | int | float | bool => exact ⟨rfl, rfl⟩
  | named free untyped => exact ⟨rfl, by simp [Source.primary, free, untyped]⟩
  | parenthesised _ ih =>
    have read := ih (endsExpression_sign _ _ (by decide) rfl)
    exact ⟨rfl, by simp [Source.primary, read]⟩
  | noArguments => simp [Completes, Source.arguments]
  | firstArgument spansFirst spansMore first more =>
    -- An argument is no closing parenthesis, and what follows it ends it.
    have noParen := (spansFirst.starts trivial).noSign .rightParen (by simp)
    have readFirst := first (ends_of_moreArguments spansMore)
    have readMore := more _ (Nat.le_refl _)
    simp [Completes, Source.arguments, noParen, readFirst, readMore]
  | endArguments =>
    intro limit _
    cases limit <;> simp [Source.moreArguments]
  | nextArgument spansNext spansMore next more =>
    intro limit enough
    obtain ⟨less, rfl, enoughMore⟩ := limit_step (Nat.lt_succ_of_lt spansNext.shorter) enough
    have readNext := next (ends_of_moreArguments spansMore)
    have readMore := more less enoughMore
    simp [Source.moreArguments, readNext, readMore]

/-- An expression that fits, and that nothing goes on with, is read as the tree it stands for. -/
theorem expression_complete {e : Expr} (spans : (expression e).Spans room tokens rest)
    (ends : EndsExpression rest) : Source.expression room tokens = .ok (e, rest) :=
  -- Every phrase is read as a whole, and an expression is one of them.
  completes spans ends

end Shading.Grammar

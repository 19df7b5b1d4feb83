import Shading.Language.Expr
import Shading.Source.Parser

/-! Reading expressions by the precedence of their operators. -/

namespace Shading.Source

/-- Reads the arguments of a call after the first one, and the parenthesis that ends them. -/
def moreArguments (argument : Parser Expr) : Nat → Parser (List Expr)
  -- Every argument takes a word, so that no comma is left when the limit is met.
  | 0, tokens => do
    let rest ← expect .rightParen tokens
    return ([], rest)
  | limit + 1, tokens =>
    if startsWith .comma tokens then do
      let (first, rest) ← argument tokens.tail
      let (more, rest) ← moreArguments argument limit rest
      return (first :: more, rest)
    else do
      let rest ← expect .rightParen tokens
      return ([], rest)

/-- Reads the arguments of a call up to the parenthesis that ends them. -/
def arguments (argument : Parser Expr) : Parser (List Expr) := fun tokens =>
  if startsWith .rightParen tokens then .ok ([], tokens.tail)
  else do
    let (first, rest) ← argument tokens
    let (more, rest) ← moreArguments argument rest.length rest
    return (first :: more, rest)

/-- Reads a literal, a name or an expression in parentheses. -/
def primary (nested : Parser Expr) : Parser Expr
  | ⟨.integer _ value, _⟩ :: rest => .ok (.int value, rest)
  | ⟨.float _ value, _⟩ :: rest => .ok (.float value, rest)
  | ⟨.boolean value, _⟩ :: rest => .ok (.bool value, rest)
  | ⟨.identifier name, line⟩ :: rest =>
    -- A type is an expression only where it is called.
    if isReserved name || ((DataType.ofKeyword? name).isSome && !startsWith .leftParen rest) then
      unexpected .expression (⟨.identifier name, line⟩ :: rest)
    else .ok (.variable name, rest)
  | ⟨.symbol .leftParen, _⟩ :: rest => do
    let (inner, rest) ← nested rest
    let rest ← expect .rightParen rest
    return (inner, rest)
  | tokens => unexpected .expression tokens

/-- Reads the calls, fields and indices that follow an expression. -/
def suffixes (nested : Parser Expr) : Nat → Expr → Parser Expr
  -- Every suffix takes a word, so that none is left when the limit is met.
  | 0, object, tokens => .ok (object, tokens)
  | limit + 1, object, tokens =>
    match (headToken tokens).lexeme with
    | .symbol .leftParen =>
      match object with
      | .variable callee => do
        let (arguments, rest) ← arguments nested tokens.tail
        suffixes nested limit (.call callee arguments) rest
      -- Only a name can be called.
      | _ => unexpected .operator tokens
    | .symbol .dot => do
      let (field, rest) ← name .fieldName tokens.tail
      suffixes nested limit (.field object field) rest
    | .symbol .leftBracket => do
      let (position, rest) ← nested tokens.tail
      let rest ← expect .rightBracket rest
      suffixes nested limit (.index object position) rest
    | _ => .ok (object, tokens)

/-- The operator before an operand that the words start with. -/
def headUnary? (tokens : List Token) : Option UnaryOp :=
  match (headToken tokens).lexeme with
  | .symbol symbol => UnaryOp.ofSymbol? symbol
  | _ => none

/-- Reads an operand: operators before it, or a primary expression with its suffixes. -/
def unary (deeper nested : Parser Expr) : Parser Expr := fun tokens =>
  match headUnary? tokens with
  | some op => do
    -- The operand takes its suffixes first, as they bind tighter than the operator.
    let (operand, rest) ← deeper tokens.tail
    return (.unary op operand, rest)
  | none => do
    let (object, rest) ← primary nested tokens
    suffixes nested rest.length object rest

/-- The operator between two operands that the words start with. -/
def headBinary? (tokens : List Token) : Option BinaryOp :=
  match (headToken tokens).lexeme with
  | .symbol symbol => BinaryOp.ofSymbol? symbol
  | _ => none

/-- Goes on from a left operand through the operators that bind at least as tightly as asked. -/
def chain (tighter : Nat → Parser Expr) (least : Nat) : Nat → Expr → Parser Expr
  | room, left, tokens =>
    match headBinary? tokens with
    | none => .ok (left, tokens)
    | some op =>
      if op.precedence < least then .ok (left, tokens)
      else
        -- Every operator of the chain puts its left operand one level deeper.
        match room with
        | 0 => tooDeep tokens
        | room + 1 => do
          -- An equally tight operator further right belongs to the chain itself.
          let (right, rest) ← tighter (op.precedence + 1) tokens.tail
          chain tighter least room (.binary op left right) rest

/-- Reads operands joined by operators that bind at least as tightly as asked. -/
def climb (operand : Parser Expr) (room : Nat) : Nat → Nat → Parser Expr
  -- Beyond the tightest level there are no more operators.
  | 0, _, tokens => operand tokens
  | levels + 1, least, tokens => do
    let (left, rest) ← operand tokens
    chain (climb operand room levels) least room left rest

/-- Reads operands joined by operators, or a choice between two expressions. -/
def ternary (room : Nat) (operand nested : Parser Expr) : Parser Expr := fun tokens => do
  let (condition, rest) ← climb operand room BinaryOp.levels 1 tokens
  if startsWith .question rest then
    -- Both branches are whole expressions, which may be choices themselves.
    let (yes, rest) ← nested rest.tail
    let rest ← expect .colon rest
    let (no, rest) ← nested rest
    return (.ternary condition yes no, rest)
  else return (condition, rest)

/-- The readers of expressions and of operands, one level deeper than where they are used. -/
structure ExprParsers where
  expression : Parser Expr
  operand : Parser Expr

/-- The readers of what may be nested within the given number of further levels. -/
def exprParsers : Nat → ExprParsers
  | 0 => ⟨tooDeep, tooDeep⟩
  | room + 1 =>
    let inner := exprParsers room
    let operand := unary inner.operand inner.expression
    ⟨ternary room operand inner.expression, operand⟩

/-- Reads an expression within the given number of further levels. -/
def expression (room : Nat) : Parser Expr :=
  (exprParsers room).expression

end Shading.Source

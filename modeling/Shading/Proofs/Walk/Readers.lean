import Shading.Proofs.Walk.State

/-! The readers of a source over a shared state, and a source as a whole. -/

namespace Shading.Walk

/-! ## Expressions -/

/-- Reads the arguments of a call from one on, and the parenthesis that ends them. -/
def argumentList (expression : Walk Expr) : Nat → Walk (List Expr)
  | 0 => stuck
  | limit + 1 => do
    let first ← expression
    if ← looking (Source.startsWith .comma) then
      advance
      let more ← argumentList expression limit
      return first :: more
    else
      pass .rightParen
      return [first]

/-- Reads the arguments of a call, whose opening parenthesis is passed already. -/
def arguments (expression : Walk Expr) : Walk (List Expr) := visiting .arguments do
  if ← looking (Source.startsWith .rightParen) then
    advance
    return []
  else looping (argumentList expression)

/-- Reads a literal, a name or an expression in parentheses. -/
def primary (expression : Walk Expr) : Walk Expr := do
  match (← looking Source.headToken).lexeme with
  | .integer _ value =>
    advance
    return .int value
  | .float _ value =>
    advance
    return .float value
  | .boolean value =>
    advance
    return .bool value
  | .identifier name =>
    -- The name of a type is an expression only where it is called.
    let called ← peeking (Source.startsWith .leftParen)
    if isReserved name || ((DataType.ofKeyword? name).isSome && !called) then
      unexpected .expression
    else
      advance
      return .variable name
  | .symbol .leftParen =>
    advance
    let inner ← expression
    pass .rightParen
    return inner
  | _ => unexpected .expression

/-- Reads the calls, fields and indices that follow an expression. -/
def suffixes (expression : Walk Expr) : Nat → Expr → Walk Expr
  | 0, _ => stuck
  | limit + 1, object => do
    match (← looking Source.headToken).lexeme with
    | .symbol .leftParen =>
      match object with
      -- Only a name can be called.
      | .variable callee =>
        advance
        let arguments ← arguments expression
        suffixes expression limit (.call callee arguments)
      | _ => unexpected .operator
    | .symbol .dot =>
      advance
      let field ← name .fieldName
      suffixes expression limit (.field object field)
    | .symbol .leftBracket =>
      advance
      let position ← expression
      pass .rightBracket
      suffixes expression limit (.index object position)
    | _ => return object

/-- Reads a primary expression with its suffixes. -/
def suffixed (expression : Walk Expr) : Walk Expr := visiting .suffixed do
  let object ← primary expression
  looping fun limit => suffixes expression limit object

/-- Reads an operand with the operators before it. -/
def unary (deeper expression : Walk Expr) : Walk Expr := visiting .unary do
  match ← looking Source.headUnary? with
  | some op =>
    advance
    let operand ← nested deeper
    return .unary op operand
  | none => suffixed expression

/-- Goes on from a left operand through the operators that bind at least as tightly as asked. -/
def chain (tighter : Nat → Walk Expr) (least : Nat) : Nat → Nat → Expr → Walk Expr
  | 0, _, _ => stuck
  | limit + 1, chained, left => do
    match ← looking Source.headBinary? with
    | none => return left
    | some op =>
      if op.precedence < least then return left
      -- Every operator of the chain puts its left operand one level deeper.
      else if maxNesting < (← depth) + (chained + 1) then fault fun _ => .tooDeep
      else
        advance
        let right ← tighter (op.precedence + 1)
        chain tighter least limit (chained + 1) (.binary op left right)

/-- Reads operands joined by operators that bind at least as tightly as asked. -/
def binary (unary : Walk Expr) : Nat → Nat → Walk Expr
  | 0, _ => stuck
  | levels + 1, least => visiting .binary do
    let left ← unary
    looping fun limit => chain (binary unary levels) least limit 0 left

/-- Reads operands joined by operators, or a choice between two expressions. -/
def ternary (unary expression : Walk Expr) : Walk Expr := do
  -- The operands of the tightest operators are read on a level of their own.
  let condition ← binary unary (BinaryOp.levels + 1) 1
  if ← looking (Source.startsWith .question) then
    advance
    let yes ← expression
    pass .colon
    let no ← expression
    return .ternary condition yes no
  else return condition

/-- The readers of expressions on one level. -/
structure Expressions where
  ternary : Walk Expr
  unary : Walk Expr

/-- The readers of expressions for a number of levels, the outermost of which is theirs. -/
def expressions : Nat → Expressions
  | 0 => ⟨stuck, stuck⟩
  | levels + 1 =>
    let inner := expressions levels
    let expression := visiting .expression (nested inner.ternary)
    let unary := unary inner.unary expression
    ⟨ternary unary expression, unary⟩

/-- Reads an expression with a number of levels below the one that it is met on. -/
def expression (levels : Nat) : Walk Expr :=
  visiting .expression (nested (expressions levels).ternary)

/-! ## Conditionals -/

variable {β : Type} (isDefined : String → Bool)

/-- Reads parts up to a closing brace and passes it. -/
def untilBrace (part : Walk (List β)) : Nat → Walk (List β)
  | 0 => stuck
  | limit + 1 => do
    if ← looking (Source.startsWith .rightBrace) then
      advance
      return []
    -- At the end of the source the cursor would stand still, and the loop with it.
    else if ← hasMore then
      let first ← part
      let more ← untilBrace part limit
      return first ++ more
    else unexpected (.symbol .rightBrace)

/-- Reads parts between braces. -/
def braced (part : Walk (List β)) : Walk (List β) := do
  pass .leftBrace
  looping (untilBrace part)

/-- Reads a region of a conditional, of which nothing is left if it is not taken. -/
def region (taken : Bool) (part : Walk (List β)) : Walk (List β) := visiting .region do
  pass .leftBrace
  let elements ← gated taken (looping (untilBrace (nested part)))
  return if taken then elements else []

/-- Reads what may follow the first region of a conditional, of which these elements are left. -/
def alternative (taken : Bool) (part chained : Walk (List β)) (yes : List β) : Walk (List β) := do
  if (← looking Source.headKeyword?) == some .otherwise then
    advance
    if ← looking Source.startsConditional then
      -- The test of a further conditional gates its own elements, so they are kept as they come.
      let no ← gatedAlways (!taken) (nested chained)
      return if taken then yes else yes ++ no
    else
      let no ← region (!taken) part
      return yes ++ no
  else return yes

/-- Reads a conditional, on the test of which the words have to stand. -/
def conditional (part chained : Walk (List β)) : Walk (List β) := visiting .conditional do
  -- Its keyword tells which way the test is meant.
  let negated := (← looking Source.headKeyword?) == some .ifUndefined
  advance
  let key ← name .defineName
  let taken := isDefined key != negated
  let yes ← region taken part
  alternative taken part chained yes

/-! ## Statements -/

/-- Reads the declaration of a local variable. -/
def localDeclaration (levels : Nat) : Walk (List Statement) := visiting .localDeclaration do
  let type ← dataType
  let name ← name .variableName
  if ← looking (Source.startsWith .assign) then
    advance
    let initial ← expression levels
    pass .semicolon
    return [.declare ⟨type, name⟩ (some initial)]
  else
    pass .semicolon
    return [.declare ⟨type, name⟩ none]

/-- Reads an assignment or an expression that stands alone. -/
def assignment (levels : Nat) : Walk (List Statement) := do
  let target ← expression levels
  match ← looking Source.headAssign? with
  | some op =>
    if target.isAssignable then
      advance
      let value ← expression levels
      pass .semicolon
      return [.assign target op value]
    else unexpected (.symbol .semicolon)
  | none =>
    pass .semicolon
    return [.evaluate target]

/-- Reads a statement that starts with no keyword. -/
def plainStatement (levels : Nat) : Walk (List Statement) := do
  match (← looking Source.headToken).lexeme with
  | .identifier name =>
    -- A type before another identifier declares it, a type before anything else is called.
    let declared ← peeking Source.startsWithIdentifier
    if (DataType.ofKeyword? name).isSome && declared then localDeclaration levels
    else assignment levels
  | _ => assignment levels

/-- Reads an `if`, on which the words have to stand. -/
def selection (levels : Nat) (block chained : Walk (List Statement)) : Walk (List Statement) :=
  visiting .selection do
    advance
    pass .leftParen
    let condition ← expression levels
    pass .rightParen
    let yes ← block
    if (← looking Source.headKeyword?) == some .otherwise then
      advance
      if (← looking Source.headKeyword?) == some .selection then
        let no ← nested chained
        return [.ifThenElse condition yes no]
      else
        let no ← block
        return [.ifThenElse condition yes no]
    else return [.ifThen condition yes]

/-- The readers of statements on one level. -/
structure Bodies where
  statement : Walk (List Statement)
  conditional : Walk (List Statement)
  selection : Walk (List Statement)
  braced : Walk (List Statement)

/-- Reads a block, the statements of which are one level deeper. -/
def block (inner : Bodies) : Walk (List Statement) :=
  visiting .block (nested inner.braced)

/-- Reads a statement or the statements of a conditional. -/
def statement (levels : Nat) (inner : Bodies) : Walk (List Statement) := visiting .statement do
  match ← looking Source.headKeyword? with
  | some .ifDefined | some .ifUndefined => conditional isDefined inner.statement inner.conditional
  | some .selection => selection levels (block inner) inner.selection
  | some .discard =>
    advance
    pass .semicolon
    return [.discard]
  | some .leave =>
    advance
    pass .semicolon
    return [.leave]
  | _ => plainStatement levels

/-- The readers of statements for a number of levels, the outermost of which is theirs. -/
def bodies : Nat → Bodies
  | 0 => ⟨stuck, stuck, stuck, stuck⟩
  | levels + 1 =>
    let inner := bodies levels
    let statement := statement isDefined levels inner
    ⟨statement, conditional isDefined inner.statement inner.conditional,
      selection levels (block inner) inner.selection, braced statement⟩

/-! ## Top-level parts -/

/-- Reads a declaration, on the keyword of which the words have to stand. -/
def declaration (role : Role) : Walk (Item (List Statement)) := do
  advance
  let type ← dataType
  let line := (← looking Source.headToken).line
  let name ← name .name
  pass .semicolon
  return .declaration role ⟨type, name⟩ line

/-- Reads the names of components up to a closing brace, each with its line. -/
def componentNames : Nat → Walk (List (String × Nat))
  | 0 => stuck
  | limit + 1 => do
    if ← looking (Source.startsWith .rightBrace) then
      advance
      return []
    else
      let line := (← looking Source.headToken).line
      let name ← name .vertexComponent
      -- The comma after the last component may be left out.
      unless ← looking (Source.startsWith .rightBrace) do pass .comma
      let names ← componentNames limit
      return (name, line) :: names

/-- Reads a vertex layout, on which the words have to stand. -/
def layout : Walk (Item (List Statement)) := do
  let line := (← looking Source.headToken).line
  advance
  pass .leftBrace
  let named ← looping componentNames
  return .layout named line

/-- Reads a stage, on which the words have to stand. -/
def stage (levels : Nat) (which : Stage) : Walk (Item (List Statement)) := do
  let line := (← looking Source.headToken).line
  advance
  let body ← block (bodies isDefined levels)
  return .stage which body line

/-- Reads a top-level part that is not conditional. -/
def plainItem (levels : Nat) : Walk (Item (List Statement)) := do
  match ← looking Source.headKeyword? with
  | some .uniform => declaration .uniform
  | some .varying => declaration .varying
  | some .output => declaration .output
  | some .vertexLayout => layout
  | some .vertex => stage isDefined levels .vertex
  | some .fragment => stage isDefined levels .fragment
  | _ => unexpected .item

/-- The readers of top-level parts on one level. -/
structure Items where
  item : Walk (List Unit)
  conditional : Walk (List Unit)

/-- Reads a top-level part and declares it, or a conditional of such parts. -/
def item (levels : Nat) (inner : Items) : Walk (List Unit) := visiting .item do
  if ← looking Source.startsConditional then conditional isDefined inner.item inner.conditional
  else
    let read ← plainItem isDefined levels
    declare read
    -- Unlike a statement, a top-level part leaves nothing for the conditional around it.
    return []

/-- The readers of top-level parts for a number of levels, the outermost of which is theirs. -/
def items : Nat → Items
  | 0 => ⟨stuck, stuck⟩
  | levels + 1 =>
    let inner := items levels
    ⟨item isDefined levels inner, conditional isDefined inner.item inner.conditional⟩

/-- Reads top-level parts up to the end of the source. -/
def untilEnd (part : Walk (List Unit)) : Nat → Walk Unit
  | 0 => stuck
  | limit + 1 => do
    if ← hasMore then
      -- Each part takes a word, which bounds the rounds.
      countRound
      let _ ← part
      untilEnd part limit
    else return ()

/-- Reads the words of a source under a define set, and leaves the state of the end. -/
def program (name : String) (defines : Defines) (stream : TokenStream) :
    Option (Except ParseError Program × State) :=
  let part := item defines.isDefined maxNesting (items defines.isDefined maxNesting)
  let start := { stream, draft := ⟨.empty name defines, false⟩ }
  (looping (untilEnd part) start).map fun (result, state) =>
    -- What was declared before a failure is left in the state, but it is no program.
    (result.map fun _ => state.draft.program, state)

/-- Reads a source under a define set, once it is cut into words. -/
def parse (name : String) (defines : Defines) (source : String) :
    Except LexError (Option (Except ParseError Program × State)) :=
  (TokenStream.ofSource source).map (program name defines)

end Shading.Walk

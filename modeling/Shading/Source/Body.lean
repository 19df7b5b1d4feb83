import Shading.Source.Expression
import Shading.Source.Statement

/-! Reading the statements of stage bodies. -/

namespace Shading.Source

/-- Reads the declaration of a local variable. -/
def localDeclaration (room : Nat) : Parser SourceStatement := fun tokens => do
  let (type, rest) ← dataType tokens
  let (name, rest) ← name .variableName rest
  if startsWith .assign rest then
    let (initial, rest) ← expression room rest.tail
    let rest ← expect .semicolon rest
    return (.declare ⟨type, name⟩ (some initial), rest)
  else
    let rest ← expect .semicolon rest
    return (.declare ⟨type, name⟩ none, rest)

/-- The assignment that the words start with. -/
def headAssign? (tokens : List Token) : Option AssignOp :=
  match (headToken tokens).lexeme with
  | .symbol symbol => AssignOp.ofSymbol? symbol
  | _ => none

/-- Reads an assignment or an expression that stands alone. -/
def assignment (room : Nat) : Parser SourceStatement := fun tokens => do
  let (target, rest) ← expression room tokens
  match headAssign? rest with
  | some op =>
    if target.isAssignable then
      let (value, rest) ← expression room rest.tail
      let rest ← expect .semicolon rest
      return (.assign target op value, rest)
    -- What cannot be assigned to should have ended before the assignment.
    else unexpected (.symbol .semicolon) rest
  | none =>
    let rest ← expect .semicolon rest
    return (.evaluate target, rest)

/-- Reads a statement that holds no other statements. -/
def simpleStatement (room : Nat) : Parser SourceStatement := fun tokens =>
  match headKeyword? tokens with
  | some .discard => do
    let rest ← expect .semicolon tokens.tail
    return (.discard, rest)
  | some .leave => do
    let rest ← expect .semicolon tokens.tail
    return (.leave, rest)
  | _ =>
    -- A type before another identifier declares it, a type before anything else is called.
    match (headToken tokens).lexeme with
    | .identifier name =>
      if (DataType.ofKeyword? name).isSome && startsWithIdentifier tokens.tail then
        localDeclaration room tokens
      else assignment room tokens
    | _ => assignment room tokens

/-- Reads a block of statements as a whole. -/
def block (statement : PartsParser SourceStatement) : Parser (List SourceStatement) := fun tokens =>
  (braced statement tokens).toResult

/-- The readers of parts of a body, one level deeper than where they are used. -/
structure BodyParsers where
  statement : PartsParser SourceStatement
  conditional : PartsParser SourceStatement
  selection : Parser SourceStatement
  block : Parser (List SourceStatement)

/-- Reads an `if`, on which the words have to stand. -/
def selection (room : Nat) (inner : BodyParsers) : Parser SourceStatement := fun tokens => do
  let rest ← expect .leftParen tokens.tail
  let (condition, rest) ← expression room rest
  let rest ← expect .rightParen rest
  let (yes, rest) ← inner.block rest
  if headKeyword? rest == some .otherwise then
    -- An `if` after `else` is the only statement of the alternative.
    if headKeyword? rest.tail == some .selection then
      let (no, rest) ← inner.selection rest.tail
      return (.ifThenElse condition yes [no], rest)
    else
      let (no, rest) ← inner.block rest.tail
      return (.ifThenElse condition yes no, rest)
  else return (.ifThen condition yes, rest)

/-- Reads a statement or a conditional among statements. -/
def statement (room : Nat) (inner : BodyParsers) : PartsParser SourceStatement := fun tokens =>
  match headKeyword? tokens with
  | some .ifDefined | some .ifUndefined =>
    conditional .choice inner.statement inner.conditional tokens
  | some .selection => .ofResult (selection room inner tokens)
  | _ => .ofResult (simpleStatement room tokens)

/-- The readers of what may be nested within the given number of further levels. -/
def bodyParsers : Nat → BodyParsers
  | 0 => ⟨fun tokens => ⟨[], tooDeep tokens⟩, fun tokens => ⟨[], tooDeep tokens⟩, tooDeep, tooDeep⟩
  | room + 1 =>
    -- A level is built from the one inside of it, so that the recursion is on the room alone.
    let inner := bodyParsers room
    ⟨statement room inner, conditional .choice inner.statement inner.conditional,
      selection room inner, block (statement room inner)⟩

end Shading.Source

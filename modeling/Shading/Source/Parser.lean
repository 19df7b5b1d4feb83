import Shading.Language.DataType
import Shading.Source.GrammarError
import Shading.Source.Guard

/-! What all parts of the grammar are read with. -/

namespace Shading.Source

/-- The first of the words that remain. -/
def headToken (tokens : List Token) : Token :=
  -- The end of a source is a word, so that some word always remains.
  tokens.headD ⟨.endOfFile, 1⟩

/-- The keyword that the words start with. -/
def headKeyword? (tokens : List Token) : Option Keyword :=
  (headToken tokens).keyword?

/-- The words start with this symbol. -/
def startsWith (symbol : Symbol) (tokens : List Token) : Bool :=
  (headToken tokens).lexeme == .symbol symbol

/-- The words start with an identifier, which may be reserved. -/
def startsWithIdentifier (tokens : List Token) : Bool :=
  match (headToken tokens).lexeme with
  | .identifier _ => true
  | _ => false

/-- Reads something from the front of the words, leaving the words after it. -/
abbrev Parser (α : Type) := List Token → Except GrammarError (α × List Token)

/-- Faults the first word for not being what is expected. -/
def unexpected {α : Type} (expected : Expectation) (tokens : List Token) :
    Except GrammarError α :=
  .error ⟨(headToken tokens).line, .unexpected expected (headToken tokens).lexeme⟩

/-- Faults the first word for standing on too deep a level. -/
def tooDeep {α : Type} (tokens : List Token) : Except GrammarError α :=
  .error ⟨(headToken tokens).line, .tooDeep⟩

/-- Passes a symbol. -/
def expect (symbol : Symbol) (tokens : List Token) : Except GrammarError (List Token) :=
  if startsWith symbol tokens then .ok tokens.tail else unexpected (.symbol symbol) tokens

/-- Reads an identifier that is not reserved. -/
def name (expected : Expectation) : Parser String
  | ⟨.identifier name, line⟩ :: rest =>
    if isReserved name then unexpected expected (⟨.identifier name, line⟩ :: rest)
    else .ok (name, rest)
  | tokens => unexpected expected tokens

/-- Reads a data type. -/
def dataType : Parser DataType
  | ⟨.identifier name, line⟩ :: rest =>
    match DataType.ofKeyword? name with
    | some type => .ok (type, rest)
    | none => .error ⟨line, .unknownDataType name⟩
  | tokens => unexpected .dataType tokens

/-- Parts completed in order, and the words after them or the fault that ended the reading. -/
structure Outcome (α : Type) where
  completed : List α
  rest : Except GrammarError (List Token)

namespace Outcome

/-- A fault before anything was completed. -/
def fault {α : Type} (error : GrammarError) : Outcome α :=
  ⟨[], .error error⟩

/-- The outcome of reading a single part. -/
def ofResult {α : Type} : Except GrammarError (α × List Token) → Outcome α
  | .ok (value, rest) => ⟨[value], .ok rest⟩
  | .error error => fault error

/-- The parts as a whole, of which nothing is left if the reading ended in a fault. -/
def toResult {α : Type} (outcome : Outcome α) : Except GrammarError (List α × List Token) :=
  outcome.rest.map fun rest => (outcome.completed, rest)

/-- Goes on reading after an outcome without fault. -/
def andThen {α : Type} (outcome : Outcome α) (next : List Token → Outcome α) : Outcome α :=
  match outcome.rest with
  | .ok rest =>
    let following := next rest
    ⟨outcome.completed ++ following.completed, following.rest⟩
  | .error _ => outcome

end Outcome

/-- Reads a list of parts. -/
abbrev PartsParser (α : Type) := List Token → Outcome α

/-- Reads parts up to a closing brace and passes it. -/
def untilBrace {α : Type} (part : PartsParser α) : Nat → PartsParser α
  | 0, tokens => if startsWith .rightBrace tokens then ⟨[], .ok tokens.tail⟩
    -- Every part takes a word, so that no word is left when the limit is met.
    else ⟨[], unexpected (.symbol .rightBrace) tokens⟩
  | limit + 1, tokens =>
    if startsWith .rightBrace tokens then ⟨[], .ok tokens.tail⟩
    else if (headToken tokens).isEnd then ⟨[], unexpected (.symbol .rightBrace) tokens⟩
    else (part tokens).andThen (untilBrace part limit)

/-- Reads parts between braces. -/
def braced {α : Type} (part : PartsParser α) : PartsParser α := fun tokens =>
  match expect .leftBrace tokens with
  | .ok rest => untilBrace part rest.length rest
  | .error error => .fault error

/-- The words start with a test for a define. -/
def startsConditional (tokens : List Token) : Bool :=
  match headKeyword? tokens with
  | some .ifDefined | some .ifUndefined => true
  | _ => false

/-- Reads a test for a define, on which the words have to stand. -/
def guard : Parser Guard := fun tokens => do
  let (key, rest) ← name .defineName tokens.tail
  return (⟨key, headKeyword? tokens == some .ifDefined⟩, rest)

/-- Reads what may follow the first region of a conditional. -/
def alternative {α : Type} (part chained : PartsParser α) : PartsParser α := fun tokens =>
  if headKeyword? tokens == some .otherwise then
    if startsConditional tokens.tail then chained tokens.tail else braced part tokens.tail
  else ⟨[], .ok tokens⟩

/-- Reads a conditional, made of the parts completed in its regions even if a fault ends it. -/
def conditional {α : Type} (choice : Guard → List α → List α → α) (part chained : PartsParser α) :
    PartsParser α := fun tokens =>
  match guard tokens with
  | .error error => .fault error
  | .ok (guard, rest) =>
    let yes := braced part rest
    match yes.rest with
    -- What was completed may hold a fault of its own, which comes first as it is further up.
    | .error error => ⟨[choice guard yes.completed []], .error error⟩
    | .ok rest =>
      let no := alternative part chained rest
      ⟨[choice guard yes.completed no.completed], no.rest⟩

end Shading.Source

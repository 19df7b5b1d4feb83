import Shading.Language.Token

/-! Faults in the order of the words of a source. -/

namespace Shading

/-- What a word should have been. -/
inductive Expectation
  | symbol (symbol : Symbol)
  | dataType | name | variableName | defineName | vertexComponent | fieldName
  | expression | operator | item
deriving DecidableEq

/-- The wording of an expectation. -/
def Expectation.describe : Expectation → String
  | symbol s => "`" ++ s.spelling ++ "`"
  | dataType => "a data type"
  | name => "a name"
  | variableName => "a variable name"
  | defineName => "a define name"
  | vertexComponent => "a vertex component"
  | fieldName => "a field name"
  | expression => "an expression"
  | operator => "an operator"
  | item => "a declaration, a vertex layout or a stage"

/-- The deepest nesting of blocks, regions and parts of expressions. -/
def maxNesting : Nat := 128

/-- What is wrong with the order of words. -/
inductive GrammarError.Cause
  | unexpected (expected : Expectation) (found : Lexeme)
  | unknownDataType (name : String)
  | tooDeep
deriving DecidableEq

/-- A fault in the order of words and the line of the word that shows it. -/
structure GrammarError where
  line : Nat
  cause : GrammarError.Cause
deriving DecidableEq

/-- The wording of a fault in the order of words. -/
def GrammarError.message (error : GrammarError) : String :=
  "line " ++ error.line.repr ++ ": " ++
    match error.cause with
    | .unexpected expected found =>
      "expected " ++ expected.describe ++ ", found " ++ found.describe
    | .unknownDataType name => "unknown data type `" ++ name ++ "`"
    | .tooDeep => "nesting deeper than " ++ maxNesting.repr ++ " levels"

end Shading

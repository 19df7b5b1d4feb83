import Shading.Language.Lexer
import Shading.Program.Draft
import Shading.Source.Unit

/-! Reading a source under a define set. -/

namespace Shading

/-- What keeps a source from being a program. -/
inductive ParseError
  | lexical (error : LexError)
  | grammar (error : GrammarError)
  | declaration (error : DeclarationError)
deriving DecidableEq

namespace ParseError

/-- The line that an error is about. -/
def line : ParseError → Nat
  | lexical error => error.line
  | grammar error => error.line
  | declaration error => error.line

/-- The wording of an error. -/
def message : ParseError → String
  | lexical error => error.message
  | grammar error => error.message
  | declaration error => error.message

/-- The wordings of the errors behind an error. -/
def causes : ParseError → List String
  | lexical error => [error.message]
  | grammar _ | declaration _ => []

end ParseError

namespace Program

/-- Declares what a reading completed, and then reports the fault that ended it. -/
def ofOutcome (name : String) (defines : Defines) (outcome : Source.Outcome SourceItem) :
    Except ParseError Program := do
  let items := activeItems defines.isDefined outcome.completed
  -- A fault in a declaration lies before the word that ended the reading.
  let draft ← (Draft.declareAll ⟨.empty name defines, false⟩ items).mapError
    .declaration
  let _ ← outcome.rest.mapError .grammar
  return draft.program

/-- The program that words are under a define set, nested at most as deeply as given. -/
def ofTokens (room : Nat) (name : String) (defines : Defines) (tokens : List Token) :
    Except ParseError Program :=
  ofOutcome name defines (Source.sourceItems room tokens)

/-- The program that a source is under a define set. -/
def parse (name : String) (defines : Defines) (source : String) : Except ParseError Program := do
  let tokens ← (tokenize source).mapError .lexical
  ofTokens maxNesting name defines tokens

end Program

end Shading

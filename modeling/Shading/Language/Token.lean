import Shading.Binary32.Basic
import Shading.Language.Symbol
import Shading.Language.Keyword

/-! Words of the shading language, each on the line it starts on. -/

namespace Shading

/-- What a word of a source is, with the text it was written with where that can vary. -/
inductive Lexeme
  | endOfFile
  | float (text : String) (value : Binary32)
  | integer (text : String) (value : Nat)
  | boolean (value : Bool)
  | symbol (symbol : Symbol)
  | identifier (name : String)
deriving DecidableEq, Inhabited

namespace Lexeme

/-- The characters of a word; the end of the source has none. -/
def text : Lexeme → String
  | endOfFile => ""
  | float text _ => text
  | integer text _ => text
  | boolean value => if value then "true" else "false"
  | symbol s => s.spelling
  | identifier name => name

/-- The number of an integer literal, zero for all other words. -/
def integerValue : Lexeme → Nat
  | integer _ value => value
  | _ => 0

/-- The number of a float literal, zero for all other words. -/
def floatValue : Lexeme → Binary32
  | float _ value => value
  | _ => ⟨0⟩

/-- Only the literal `true` is true. -/
def booleanValue : Lexeme → Bool
  | boolean value => value
  | _ => false

/-- The class of a word in error messages. -/
def kindName : Lexeme → String
  | endOfFile => "end of file"
  | float _ _ => "float literal"
  | integer _ _ => "integer literal"
  | boolean _ => "boolean literal"
  | symbol _ => "operator"
  | identifier _ => "identifier"

/-- A word as error messages show it. -/
def describe : Lexeme → String
  | endOfFile => "end of file"
  | word => word.kindName ++ " `" ++ word.text ++ "`"

end Lexeme

/-- A word and the line of its first character, counted from one. -/
structure Token where
  lexeme : Lexeme
  line : Nat
deriving DecidableEq, Inhabited

namespace Token

/-- The end of a source is a word of its own, the last one. -/
def isEnd (token : Token) : Bool :=
  token.lexeme == .endOfFile

/-- The keyword that a word spells. -/
def keyword? (token : Token) : Option Keyword :=
  match token.lexeme with
  | .identifier name => Keyword.ofSpelling? name
  | _ => none

/-- The word is the operator with this spelling. -/
def isOperator (token : Token) (spelling : String) : Bool :=
  match token.lexeme with
  | .symbol s => s.spelling == spelling
  | _ => false

/-- The word is this identifier, reserved words included. -/
def isIdentifier (token : Token) (name : String) : Bool :=
  token.lexeme == .identifier name

end Token

end Shading

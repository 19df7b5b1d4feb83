/-! The operators and punctuation of the shading language. -/

namespace Shading

/-- A symbol of one or two characters. -/
inductive Symbol
  | leftBracket | rightBracket | leftParen | rightParen | leftBrace | rightBrace
  | comma | dot | semicolon | colon | less | greater | assign | bang
  | plus | minus | star | slash | ampersand | bar | question
  | equal | greaterEqual | lessEqual | notEqual | both | either
  | plusAssign | starAssign | slashAssign | ampersandAssign | barAssign
deriving DecidableEq, Inhabited

namespace Symbol

/-- The characters of a symbol. -/
def spelling : Symbol → String
  | leftBracket => "["
  | rightBracket => "]"
  | leftParen => "("
  | rightParen => ")"
  | leftBrace => "\x7b"
  | rightBrace => "\x7d"
  | comma => ","
  | dot => "."
  | semicolon => ";"
  | colon => ":"
  | less => "<"
  | greater => ">"
  | assign => "="
  | bang => "!"
  | plus => "+"
  | minus => "-"
  | star => "*"
  | slash => "/"
  | ampersand => "&"
  | bar => "|"
  | question => "?"
  | equal => "=="
  | greaterEqual => ">="
  | lessEqual => "<="
  | notEqual => "!="
  | both => "&&"
  | either => "||"
  | plusAssign => "+="
  | starAssign => "*="
  | slashAssign => "/="
  | ampersandAssign => "&="
  | barAssign => "|="

/-- The symbol of one character, if it is one. -/
def single? : Char → Option Symbol
  | '[' => some leftBracket
  | ']' => some rightBracket
  | '(' => some leftParen
  | ')' => some rightParen
  | '{' => some leftBrace
  | '}' => some rightBrace
  | ',' => some comma
  | '.' => some dot
  | ';' => some semicolon
  | ':' => some colon
  | '<' => some less
  | '>' => some greater
  | '=' => some assign
  | '!' => some bang
  | '+' => some plus
  | '-' => some minus
  | '*' => some star
  | '/' => some slash
  | '&' => some ampersand
  | '|' => some bar
  | '?' => some question
  | _ => none

/-- The symbol of two characters, if they are one. -/
def double? : Char → Char → Option Symbol
  | '=', '=' => some equal
  | '>', '=' => some greaterEqual
  | '<', '=' => some lessEqual
  | '!', '=' => some notEqual
  | '&', '&' => some both
  | '|', '|' => some either
  | '+', '=' => some plusAssign
  | '*', '=' => some starAssign
  | '/', '=' => some slashAssign
  | '&', '=' => some ampersandAssign
  | '|', '=' => some barAssign
  | _, _ => none

/-- The symbol with a given spelling. -/
def ofSpelling? (text : String) : Option Symbol :=
  match text.toList with
  | [c] => single? c
  | [c, d] => double? c d
  | _ => none

/-- Reading a spelling gives its symbol back. -/
theorem ofSpelling?_spelling (s : Symbol) : ofSpelling? s.spelling = some s := by
  -- No symbol is spelled like another one, whether it has one character or two.
  cases s <;> rfl

end Symbol

end Shading

import Shading.Text.Blank
import Shading.Text.Quoted
import Shading.Binary32.Rounding
import Shading.Language.Token

/-! Cutting a source text into its longest words, between which blanks and comments are skipped. -/

namespace Shading

/-- What is wrong with the characters of a source. -/
inductive LexError.Cause
  | unexpectedCharacter (c : Char)
  | unterminatedComment
  | invalidNumber (text : String)
deriving DecidableEq

/-- A fault in the characters of a source and the line it is found on. -/
structure LexError where
  line : Nat
  cause : LexError.Cause
deriving DecidableEq

/-- The wording of a lexical fault. -/
def LexError.message (error : LexError) : String :=
  "line " ++ error.line.repr ++ ": " ++
    match error.cause with
    | .unexpectedCharacter c => "unexpected character " ++ Text.quoted c
    | .unterminatedComment => "unterminated comment"
    | .invalidNumber text => "invalid numeric literal " ++ text

/-- A place in a source: the characters that remain and the line they start on. -/
structure Cursor where
  rest : List Char
  line : Nat
deriving DecidableEq, Inhabited

namespace Cursor

/-- The start of a source. -/
def ofSource (source : String) : Cursor :=
  ⟨source.toList, 1⟩

/-- The line after a character that stands on the given line. -/
def lineAfter (c : Char) (line : Nat) : Nat :=
  if c = '\n' then line + 1 else line

/-- What the characters between two words belong to. -/
inductive Gap
  | blanks
  | lineComment
  | blockComment (opened : Nat)
deriving DecidableEq

/-- Where a gap ends, or the line on which a comment opened that never ends. -/
structure GapEnd where
  unclosed : Option Nat
  cursor : Cursor

/-- Skips the rest of a gap. -/
def skipGap : Gap → Nat → List Char → GapEnd
  | .blanks, line, '/' :: '/' :: rest => skipGap .lineComment line rest
  | .blanks, line, '/' :: '*' :: rest => skipGap (.blockComment line) line rest
  | .blanks, line, c :: rest =>
    if Text.isBlank c then skipGap .blanks (lineAfter c line) rest else ⟨none, ⟨c :: rest, line⟩⟩
  -- The line feed that ends a comment is itself a blank.
  | .lineComment, line, c :: rest =>
    if c = '\n' then skipGap .blanks (line + 1) rest else skipGap .lineComment line rest
  | .blockComment _, line, '*' :: '/' :: rest => skipGap .blanks line rest
  | .blockComment opened, line, c :: rest =>
    skipGap (.blockComment opened) (lineAfter c line) rest
  -- Only a block comment has to end before its source does.
  | .blockComment opened, line, [] => ⟨some opened, ⟨[], line⟩⟩
  | _, line, [] => ⟨none, ⟨[], line⟩⟩

/-- Characters that can start a name. -/
def startsName (c : Char) : Bool :=
  c.isAlpha || c == '_'

/-- Characters that can continue a name. -/
def continuesName (c : Char) : Bool :=
  c.isAlphanum || c == '_'

/-- The word that a run of name characters is. -/
def nameLexeme (name : String) : Lexeme :=
  if name = "true" then .boolean true
  else if name = "false" then .boolean false
  else .identifier name

/-- The largest integer literal. -/
def largestInteger : Nat :=
  2147483647

/-- The outcome of reading one word: a word or an error, and where reading goes on. -/
structure Reading where
  result : Except LexError Token
  next : Cursor

/-- Reads the number that the cursor stands on. -/
def number (cursor : Cursor) : Reading :=
  let whole := cursor.rest.takeWhile Char.isDigit
  match cursor.rest.dropWhile Char.isDigit with
  | '.' :: rest =>
    let fraction := rest.takeWhile Char.isDigit
    let text := String.ofList (whole ++ '.' :: fraction)
    -- A number too large for the format is refused rather than read as infinity.
    let result := match Binary32.ofDecimal? (.ofParts whole fraction) with
      | some value => .ok ⟨.float text value, cursor.line⟩
      | none => .error ⟨cursor.line, .invalidNumber text⟩
    ⟨result, ⟨rest.dropWhile Char.isDigit, cursor.line⟩⟩
  | rest =>
    let text := String.ofList whole
    let value := Decimal.ofDigits whole
    let result := if value ≤ largestInteger then .ok ⟨.integer text value, cursor.line⟩
      else .error ⟨cursor.line, .invalidNumber text⟩
    ⟨result, ⟨rest, cursor.line⟩⟩

/-- Reads the symbol that the cursor stands on; what starts no word is not passed. -/
def symbol (cursor : Cursor) (c : Char) (rest : List Char) : Reading :=
  let paired := match rest with
    | d :: rest => (Symbol.double? c d).map fun s => (s, rest)
    | [] => none
  -- Two characters that form a symbol are never taken apart.
  match paired with
  | some (s, rest) => ⟨.ok ⟨.symbol s, cursor.line⟩, ⟨rest, cursor.line⟩⟩
  | none =>
    match Symbol.single? c with
    | some s => ⟨.ok ⟨.symbol s, cursor.line⟩, ⟨rest, cursor.line⟩⟩
    | none => ⟨.error ⟨cursor.line, .unexpectedCharacter c⟩, cursor⟩

/-- Reads the word that the cursor stands on, after the gap before it. -/
def word (cursor : Cursor) : Reading :=
  match cursor.rest with
  | [] => ⟨.ok ⟨.endOfFile, cursor.line⟩, cursor⟩
  | c :: rest =>
    if startsName c then
      let name := String.ofList (cursor.rest.takeWhile continuesName)
      ⟨.ok ⟨nameLexeme name, cursor.line⟩, ⟨cursor.rest.dropWhile continuesName, cursor.line⟩⟩
    else if c.isDigit then number cursor
    else symbol cursor c rest

/-- Skips a gap and reads the word after it. -/
def next (cursor : Cursor) : Reading :=
  let gap := skipGap .blanks cursor.line cursor.rest
  match gap.unclosed with
  | some opened => ⟨.error ⟨opened, .unterminatedComment⟩, gap.cursor⟩
  | none => gap.cursor.word

/-- Reads at most the given number of words, up to the end; `earlier` holds those already read. -/
def tokensFrom : Nat → Cursor → List Token → Except LexError (List Token)
  | 0, _, earlier => .ok earlier.reverse
  | limit + 1, cursor, earlier =>
    match cursor.next.result with
    | .error error => .error error
    | .ok token =>
      -- The end is a word of the list as well; it has the line that faults at the end are on.
      if token.isEnd then .ok (token :: earlier).reverse
      else tokensFrom limit cursor.next.next (token :: earlier)

end Cursor

/-- The words of a source, of which the last is its end. -/
def tokenize (source : String) : Except LexError (List Token) :=
  -- Every word but the last takes a character, so the limit is never met before the end.
  Cursor.tokensFrom (source.toList.length + 1) (.ofSource source) []

end Shading

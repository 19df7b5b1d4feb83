import Shading.Language.Lexer

/-! Moving back and forth over the words of a source. -/

namespace Shading

/-- The words of a source, the last of which is its end, and a position among them. -/
structure TokenStream where
  tokens : Array Token
  position : Nat

namespace TokenStream

/-- The words of a source, from the first one on. -/
def ofSource (source : String) : Except LexError TokenStream :=
  (tokenize source).map fun tokens => ⟨tokens.toArray, 0⟩

/-- The position of the last word. -/
def last (stream : TokenStream) : Nat :=
  stream.tokens.size - 1

/-- The word at a position, which is the end of the source beyond the last one. -/
def tokenAt (stream : TokenStream) (position : Nat) : Token :=
  (stream.tokens[position]?).getD ⟨.endOfFile, 1⟩

/-- The word at the position of the stream. -/
def current (stream : TokenStream) : Token :=
  stream.tokenAt stream.position

/-- Moves to a position, or to the last word if there is none. -/
def seek (stream : TokenStream) (position : Nat) : TokenStream :=
  { stream with position := min position stream.last }

/-- Moves to the next word; the last one is never left. -/
def advance (stream : TokenStream) : TokenStream :=
  stream.seek (stream.position + 1)

/-- The word some places ahead or, with a negative offset, behind, or the nearest one there is. -/
def peek (stream : TokenStream) (offset : Int) : Token :=
  stream.tokenAt (min (stream.position + offset).toNat stream.last)

/-- More than the end of the source is left. -/
def hasMore (stream : TokenStream) : Bool :=
  !stream.current.isEnd

end TokenStream

end Shading

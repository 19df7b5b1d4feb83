/-! Written texts as tokens with blanks between them. -/

namespace Shading.Glsl

/-- A token of a written text, or a blank. -/
inductive Mark
  | token (text : String)
  | space
  | newline
deriving DecidableEq

/-- The characters of a mark. -/
def Mark.text : Mark → String
  | token text => text
  | space => " "
  | newline => "\n"

/-- The text that marks make. -/
def render (marks : List Mark) : String :=
  String.join (marks.map (·.text))

/-- Marks in parentheses where these are needed. -/
def wrap (needed : Bool) (marks : List Mark) : List Mark :=
  if needed then .token "(" :: marks ++ [.token ")"] else marks

end Shading.Glsl

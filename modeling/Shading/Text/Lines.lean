/-! The lines of a text and the numbers printed before them. -/

namespace Shading.Text

/-- The line read so far, once its end has been found: a carriage return before it is dropped. -/
def closeLine : List Char → String
  -- The characters are held last first.
  | '\r' :: earlier => String.ofList earlier.reverse
  | reversed => String.ofList reversed.reverse

/-- The lines of the characters that follow the part of a line already read. -/
def linesFrom (reversed : List Char) : List Char → List String
  -- A text ending in a line feed has no further line, and only a found line end drops a return.
  | [] => if reversed.isEmpty then [] else [String.ofList reversed.reverse]
  | c :: rest =>
    if c = '\n' then closeLine reversed :: linesFrom [] rest
    else linesFrom (c :: reversed) rest

/-- The lines of a text, without the line feeds that end them. -/
def lines (text : String) : List String :=
  linesFrom [] text.toList

/-- A number in decimal, filled up with spaces on its left to a least width. -/
def rightAligned (width n : Nat) : String :=
  let digits := Nat.toDigits 10 n
  String.ofList (List.replicate (width - digits.length) ' ' ++ digits)

end Shading.Text

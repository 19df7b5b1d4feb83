import Shading.Text.CharRange

/-! Blank characters are those with the Unicode property of being white space. -/

namespace Shading.Text

/-- The white space characters, in order of their code points. -/
def blankTable : List CharRange :=
  [⟨0x09, 0x0d⟩, ⟨0x20, 0x20⟩, ⟨0x85, 0x85⟩, ⟨0xa0, 0xa0⟩, ⟨0x1680, 0x1680⟩,
   ⟨0x2000, 0x200a⟩, ⟨0x2028, 0x2029⟩, ⟨0x202f, 0x202f⟩, ⟨0x205f, 0x205f⟩, ⟨0x3000, 0x3000⟩]

/-- A blank separates words and is otherwise without meaning. -/
def isBlank (c : Char) : Bool :=
  inTable blankTable c

/-- Every blank known to the core library is blank. -/
theorem isBlank_of_isWhitespace {c : Char} (white : c.isWhitespace = true) : isBlank c = true := by
  -- The core library knows the space, the tab, the line feed and the carriage return.
  simp only [Char.isWhitespace, Bool.or_eq_true, decide_eq_true_eq] at white
  rcases white with ((rfl | rfl) | rfl) | rfl <;> decide

end Shading.Text

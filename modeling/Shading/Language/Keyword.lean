/-! Words with a meaning of their own, which cannot name anything. -/

namespace Shading

/-- A reserved word of the shading language. -/
inductive Keyword
  | uniform | varying | output | vertexLayout | vertex | fragment
  | ifDefined | ifUndefined | otherwise | selection | discard | leave
deriving DecidableEq, Inhabited

namespace Keyword

/-- The characters of a reserved word. -/
def spelling : Keyword → String
  | uniform => "uniform"
  | varying => "varying"
  | output => "output"
  | vertexLayout => "vertex_layout"
  | vertex => "vertex"
  | fragment => "fragment"
  | ifDefined => "ifdef"
  | ifUndefined => "ifndef"
  | otherwise => "else"
  | selection => "if"
  | discard => "discard"
  | leave => "return"

/-- The reserved word with a given spelling. -/
def ofSpelling? : String → Option Keyword
  | "uniform" => some uniform
  | "varying" => some varying
  | "output" => some output
  | "vertex_layout" => some vertexLayout
  | "vertex" => some vertex
  | "fragment" => some fragment
  | "ifdef" => some ifDefined
  | "ifndef" => some ifUndefined
  | "else" => some otherwise
  | "if" => some selection
  | "discard" => some discard
  | "return" => some leave
  | _ => none

/-- Reading a spelling gives its keyword back. -/
@[simp] theorem ofSpelling?_spelling (k : Keyword) : ofSpelling? k.spelling = some k := by
  -- The two tables list the same words, so each of them is checked by itself.
  cases k <;> rfl

end Keyword

/-- A name is reserved when it spells a keyword. -/
def isReserved (name : String) : Bool :=
  (Keyword.ofSpelling? name).isSome

end Shading

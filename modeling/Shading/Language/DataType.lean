/-! The types of declared names. -/

namespace Shading

/-- The type of a value in a shader. -/
inductive DataType
  | float | int | bool | vec2 | vec3 | vec4 | mat3 | mat4 | texture2D
deriving DecidableEq, Inhabited

namespace DataType

/-- The word that names a type in sources. -/
def keyword : DataType → String
  | float => "float"
  | int => "int"
  | bool => "bool"
  | vec2 => "vec2"
  | vec3 => "vec3"
  | vec4 => "vec4"
  | mat3 => "mat3"
  | mat4 => "mat4"
  | texture2D => "texture2D"

/-- The type that a word names. -/
def ofKeyword? : String → Option DataType
  | "float" => some float
  | "int" => some int
  | "bool" => some bool
  | "vec2" => some vec2
  | "vec3" => some vec3
  | "vec4" => some vec4
  | "mat3" => some mat3
  | "mat4" => some mat4
  | "texture2D" => some texture2D
  | _ => none

/-- Reading the word of a type gives the type back. -/
@[simp] theorem ofKeyword?_keyword (type : DataType) : ofKeyword? type.keyword = some type := by
  -- The two tables list the same nine words, so each type is checked by itself.
  cases type <;> rfl

end DataType

/-- A name with its type. -/
structure Declaration where
  type : DataType
  name : String
deriving DecidableEq, Inhabited

end Shading

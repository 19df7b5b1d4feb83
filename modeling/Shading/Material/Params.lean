import Shading.Config

/-! Descriptions of materials, which are read from JSON. -/

namespace Shading

/-- What a material is made from: the path of a source, and the define set it is read under. -/
structure MaterialParams where
  path : String
  defines : Defines := .empty
deriving DecidableEq, Inhabited

namespace MaterialParams

/-- Adds a key without a value to the define set. -/
def define (params : MaterialParams) (key : String) : MaterialParams :=
  { params with defines := params.defines.define key }

/-- The names of the parts in JSON, in their order. -/
def fieldNames : List String :=
  ["shader_program_path", "preprocessor_definitions"]

/-- The description that a JSON value gives; only the defines may be left out. -/
def ofJson? (json : Json) : Option MaterialParams := do
  let fields ← json.fields? fieldNames
  let path ← Json.orElse? (fields.lookup "shader_program_path") none Json.text?
  let defines ← Json.orElse? (fields.lookup "preprocessor_definitions") (some .empty)
    Defines.ofJson?
  return ⟨path, defines⟩

/-- The JSON value of a description. -/
def toJson (params : MaterialParams) : Json :=
  .record [
    ("shader_program_path", .ofText params.path),
    ("preprocessor_definitions", params.defines.toJson)]

end MaterialParams

end Shading

import Shading.Language.DataType

/-! The uniforms that a written program exposes. -/

namespace Shading

/-- Why a uniform cannot be given a value. -/
inductive UniformError
  | missing (name : String)
  | typeMismatch (name : String) (expected found : DataType)
deriving DecidableEq

/-- The wording of an error about a uniform. -/
def UniformError.message : UniformError → String
  | missing name => "no uniform named " ++ name
  | typeMismatch name expected found =>
    "uniform " ++ name ++ " is declared as " ++ expected.keyword ++
      " but was given a " ++ found.keyword

/-- Uniforms with their types, in the order of their declaration. -/
structure UniformTable where
  uniforms : List Declaration := []
deriving DecidableEq, Inhabited

namespace UniformTable

/-- The type of a uniform. -/
def get? (table : UniformTable) (name : String) : Option DataType :=
  (table.uniforms.find? (·.name == name)).map (·.type)

/-- Checks that a uniform exists and has a type. -/
def check (table : UniformTable) (name : String) (type : DataType) : Except UniformError Unit :=
  match table.get? name with
  | none => .error (.missing name)
  | some declared =>
    if declared = type then .ok () else .error (.typeMismatch name declared type)

/-- The number of uniforms. -/
def size (table : UniformTable) : Nat :=
  table.uniforms.length

/-- A table without uniforms. -/
def isEmpty (table : UniformTable) : Bool :=
  table.uniforms.isEmpty

end UniformTable

end Shading

import Shading.Binary32.Basic
import Shading.Language.DataType

/-! The values that uniforms can be given. -/

namespace Shading

/-- A value of a uniform; matrices are held column by column. -/
inductive UniformValue
  | float (value : Binary32)
  | int (value : Int32)
  | bool (value : Bool)
  | vec2 (elements : Vector Binary32 2)
  | vec3 (elements : Vector Binary32 3)
  | vec4 (elements : Vector Binary32 4)
  | mat3 (elements : Vector Binary32 9)
  | mat4 (elements : Vector Binary32 16)
  | texture (unit : UInt32)
deriving DecidableEq

namespace UniformValue

/-- The type of the uniforms that a value fits. -/
def dataType : UniformValue → DataType
  | float _ => .float
  | int _ => .int
  | bool _ => .bool
  | vec2 _ => .vec2
  | vec3 _ => .vec3
  | vec4 _ => .vec4
  | mat3 _ => .mat3
  | mat4 _ => .mat4
  | texture _ => .texture2D

/-- Equality of numbers at every place. -/
def sameNumbers {n : Nat} (a b : Vector Binary32 n) : Bool :=
  (a.toList.zip b.toList).all fun (x, y) => x.sameNumber y

/-- Values are the same when their numbers are; a value that is no number is not even itself. -/
def same : UniformValue → UniformValue → Bool
  | float a, float b => a.sameNumber b
  | int a, int b => a == b
  | bool a, bool b => a == b
  | vec2 a, vec2 b => sameNumbers a b
  | vec3 a, vec3 b => sameNumbers a b
  | vec4 a, vec4 b => sameNumbers a b
  | mat3 a, mat3 b => sameNumbers a b
  | mat4 a, mat4 b => sameNumbers a b
  | texture a, texture b => a == b
  | _, _ => false

end UniformValue

end Shading

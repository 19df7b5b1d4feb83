import Shading.Program.Basic
import Shading.Source.Item
import Shading.Uniform.Table

/-! Writing a program out for a target. -/

namespace Shading

/-- A target that programs are written for. -/
inductive Backend
  | glsl
deriving DecidableEq, Inhabited

/-- The name of a target. -/
def Backend.name : Backend → String
  | glsl => "GLSL"

/-- The word for what a declared name is for. -/
def Role.describe : Role → String
  | .uniform => "uniform"
  | .varying => "varying"
  | .output => "output"

/-- Something that a target cannot express. -/
inductive Construct
  | interface (role : Role) (declared : Declaration)
  | localTexture (name : String)
  | discardInVertexStage
  | other (text : String)
deriving DecidableEq

/-- The wording of what a target cannot express. -/
def Construct.describe : Construct → String
  | interface role declared =>
    declared.type.keyword ++ " " ++ role.describe ++ " `" ++ declared.name ++ "`"
  | localTexture name => "local texture2D `" ++ name ++ "`"
  | discardInVertexStage => "discard in vertex stage"
  | other text => text

/-- Why a program cannot be written out. -/
inductive WriteError
  | missingStage (stage : Stage)
  | unsupportedConstruct (construct : Construct)
deriving DecidableEq

/-- The wording of an error in writing. -/
def WriteError.message : WriteError → String
  | missingStage stage => "no " ++ stage.name ++ " stage"
  | unsupportedConstruct construct => "unsupported construct: " ++ construct.describe

/-- A program as written for a target. -/
structure Converted where
  backend : Backend
  vertex : String
  fragment : String
  uniforms : UniformTable
deriving DecidableEq, Inhabited

/-- Writes programs for a target; a program is written alike each time. -/
structure Writer where
  backend : Backend
  write : Program → Except WriteError Converted

end Shading

import Shading.Defines
import Shading.Language.Statement
import Shading.Language.VertexLayout

/-! Shader programs, independent of the language they are written out in. -/

namespace Shading

/-- What a source declares under a define set. -/
structure Program where
  name : String
  defines : Defines := .empty
  layout : VertexLayout := {}
  uniforms : List Declaration := []
  varyings : List Declaration := []
  outputs : List Declaration := []
  vertex : Option (List Statement) := none
  fragment : Option (List Statement) := none
deriving Inhabited

namespace Program

/-- A program that declares nothing yet. -/
def empty (name : String) (defines : Defines) : Program :=
  ⟨name, defines, {}, [], [], [], none, none⟩

/-- The uniform with a given name. -/
def uniform? (program : Program) (name : String) : Option Declaration :=
  program.uniforms.find? (·.name == name)

/-- The body of a stage. -/
def stage? (program : Program) : Stage → Option (List Statement)
  | .vertex => program.vertex
  | .fragment => program.fragment

/-- The names that are declared outside of stages, in no particular order. -/
def declaredNames (program : Program) : List String :=
  (program.uniforms ++ program.varyings ++ program.outputs).map (·.name) ++
    program.layout.components.map (·.name)

/-- A name is declared when a uniform, a varying, an output or a vertex component has it. -/
def isDeclared (program : Program) (name : String) : Bool :=
  program.declaredNames.contains name

end Program

end Shading

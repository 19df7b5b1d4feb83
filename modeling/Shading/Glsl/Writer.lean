import Shading.Glsl.Statement

/-! Writing programs as a vertex and a fragment shader in GLSL. -/

namespace Shading.Glsl

/-- What the first line of each written shader asks for. -/
structure Version where
  number : Nat := 330
  profile : Option String := some "core"
deriving DecidableEq

/-- The marks of the first line and the empty line after it. -/
def versionMarks (version : Version) : List Mark :=
  let profile := match version.profile with
    | some profile => [.space, .token profile]
    | none => []
  .token "#version" :: .space :: .token version.number.repr :: profile ++ [.newline, .newline]

/-- Lines with an empty line after them, if there are any. -/
def paragraph (lines : List (List Mark)) : List Mark :=
  if lines.isEmpty then [] else lines.flatten ++ [.newline]

/-- The marks of a global declaration with its qualifiers. -/
def qualified (qualifiers : List String) (declaration : Declaration) : List Mark :=
  qualifiers.flatMap (fun qualifier => [.token qualifier, .space]) ++
    [.token (typeWord declaration.type), .space, .token declaration.name, .token ";", .newline]

/-- The marks of a global declaration at a location. -/
def located (location : Nat) (qualifier : String) (declaration : Declaration) : List Mark :=
  .token "layout" :: .token "(" :: .token "location" :: .token "=" :: .token location.repr :: .token ")" :: .space ::
    qualified [qualifier] declaration

/-- The marks of uniforms. -/
def uniformMarks (uniforms : List Declaration) : List Mark :=
  paragraph (uniforms.map (qualified ["uniform"]))

/-- The declaration of a vertex component. -/
def componentDeclaration (component : VertexComponent) : Declaration :=
  ⟨component.dataType, component.name⟩

/-- The marks of vertex components, each at its place in the layout. -/
def inputMarks (layout : VertexLayout) : List Mark :=
  paragraph (layout.components.mapIdx fun location component =>
    located location "in" (componentDeclaration component))

/-- The marks of varyings, on their way out of one stage or into the next. -/
def varyingMarks (direction : String) (varyings : List Declaration) : List Mark :=
  paragraph (varyings.map fun varying =>
    -- There is nothing between two integers to interpolate.
    qualified (if varying.type = .int then ["flat", direction] else [direction]) varying)

/-- The marks of fragment outputs, each at its place among them. -/
def outputMarks (outputs : List Declaration) : List Mark :=
  paragraph (outputs.mapIdx fun location output => located location "out" output)

/-- The marks of the function that a stage runs. -/
def mainMarks (body : List Statement) : List Mark :=
  .token "void" :: .space :: .token "main" :: .token "(" :: .token ")" :: .space :: compound (blockMarks body)

/-- The marks of the vertex shader. -/
def vertexMarks (version : Version) (program : Program) (body : List Statement) : List Mark :=
  versionMarks version ++ uniformMarks program.uniforms ++ inputMarks program.layout ++
    varyingMarks "out" program.varyings ++ mainMarks body

/-- The marks of the fragment shader. -/
def fragmentMarks (version : Version) (program : Program) (body : List Statement) : List Mark :=
  versionMarks version ++ uniformMarks program.uniforms ++ varyingMarks "in" program.varyings ++
    outputMarks program.outputs ++ mainMarks body

/-- The body of a stage, which a written program must have. -/
def stageBody (program : Program) (stage : Stage) : Except WriteError (List Statement) :=
  match program.stage? stage with
  | some body => .ok body
  | none => .error (.missingStage stage)

/-- Checks that values of the declared type can be passed on from a stage. -/
def checkInterface (role : Role) (declared : Declaration) : Except WriteError Unit :=
  if declared.type = .bool ∨ declared.type = .texture2D then
    .error (.unsupportedConstruct (.interface role declared))
  else .ok ()

/-- Writes a program, or reports the first thing in it that cannot be written. -/
def write (version : Version) (program : Program) : Except WriteError Converted := do
  let vertex ← stageBody program .vertex
  let fragment ← stageBody program .fragment
  -- A missing stage is reported before any interface, and those before anything in a body.
  program.varyings.forM (checkInterface .varying)
  program.outputs.forM (checkInterface .output)
  checkBlock .vertex vertex
  checkBlock .fragment fragment
  return {
    backend := .glsl
    vertex := render (vertexMarks version program vertex)
    fragment := render (fragmentMarks version program fragment)
    uniforms := ⟨program.uniforms⟩ }

/-- The writer for GLSL of a version. -/
def writer (version : Version) : Writer :=
  ⟨.glsl, write version⟩

end Shading.Glsl

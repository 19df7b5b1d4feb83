import Shading.Program.Basic
import Shading.Source.Item

/-! Declaring the parts of a source one after the other. -/

namespace Shading

/-- What is wrong with a declaration in view of those before it. -/
inductive DeclarationError.Cause
  | duplicateUniform (name : String)
  | unknownVertexComponent (name : String)
  | duplicateDeclaration (name : String)
  | duplicateVertexLayout
  | duplicateStage (stage : Stage)
deriving DecidableEq

/-- A declaration at fault and its line. -/
structure DeclarationError where
  line : Nat
  cause : DeclarationError.Cause
deriving DecidableEq

/-- The wording of a fault in a declaration. -/
def DeclarationError.message (error : DeclarationError) : String :=
  "line " ++ error.line.repr ++ ": " ++
    match error.cause with
    | .duplicateUniform name => "uniform `" ++ name ++ "` is already declared"
    | .unknownVertexComponent name => "unknown vertex component `" ++ name ++ "`"
    | .duplicateDeclaration name => "`" ++ name ++ "` is already declared"
    | .duplicateVertexLayout => "vertex layout is already declared"
    | .duplicateStage stage => stage.name ++ " stage is already declared"

/-- A program in the making. -/
structure Draft where
  program : Program
  /-- An empty layout is a layout too, of which there can be only one. -/
  hasLayout : Bool := false

namespace Draft

/-- Adds a declaration to those of its role. -/
def addDeclaration (draft : Draft) (role : Role) (declared : Declaration) : Draft :=
  let program := draft.program
  match role with
  | .uniform => { draft with program := { program with uniforms := program.uniforms ++ [declared] } }
  | .varying => { draft with program := { program with varyings := program.varyings ++ [declared] } }
  | .output => { draft with program := { program with outputs := program.outputs ++ [declared] } }

/-- Adds a component to the vertex layout. -/
def addComponent (draft : Draft) (component : VertexComponent) : Draft :=
  let program := draft.program
  { draft with
    program := { program with layout := ⟨program.layout.components ++ [component]⟩ } }

/-- Gives a stage its body. -/
def setStage (draft : Draft) (stage : Stage) (body : List Statement) : Draft :=
  let program := draft.program
  match stage with
  | .vertex => { draft with program := { program with vertex := some body } }
  | .fragment => { draft with program := { program with fragment := some body } }

/-- Declares a name in a role. -/
def declareName (draft : Draft) (role : Role) (declared : Declaration) (line : Nat) :
    Except DeclarationError Draft :=
  -- Two uniforms of one name are told apart from other names declared twice.
  if role = .uniform ∧ (draft.program.uniform? declared.name).isSome then
    .error ⟨line, .duplicateUniform declared.name⟩
  else if draft.program.isDeclared declared.name then
    .error ⟨line, .duplicateDeclaration declared.name⟩
  else .ok (draft.addDeclaration role declared)

/-- Declares a component of the vertex layout by its name. -/
def declareComponent (draft : Draft) (named : String × Nat) : Except DeclarationError Draft :=
  match VertexComponent.ofName? named.1 with
  | none => .error ⟨named.2, .unknownVertexComponent named.1⟩
  -- Components are inputs of the vertex stage, so that they share names with nothing else.
  | some component =>
    if draft.program.isDeclared named.1 then .error ⟨named.2, .duplicateDeclaration named.1⟩
    else .ok (draft.addComponent component)

/-- Declares the vertex layout. -/
def declareLayout (draft : Draft) (named : List (String × Nat)) (line : Nat) :
    Except DeclarationError Draft :=
  if draft.hasLayout then .error ⟨line, .duplicateVertexLayout⟩
  else do
    -- A layout without components counts as well: a second one is refused all the same.
    let filled ← named.foldlM declareComponent draft
    return { filled with hasLayout := true }

/-- Declares a stage. -/
def declareStage (draft : Draft) (stage : Stage) (body : List Statement) (line : Nat) :
    Except DeclarationError Draft :=
  if (draft.program.stage? stage).isSome then .error ⟨line, .duplicateStage stage⟩
  else .ok (draft.setStage stage body)

/-- Declares a part of a source. -/
def declare (draft : Draft) : Item (List Statement) → Except DeclarationError Draft
  | .declaration role declared line => draft.declareName role declared line
  | .layout named line => draft.declareLayout named line
  | .stage which body line => draft.declareStage which body line

/-- Declares the parts of a source in order, up to the first one at fault. -/
def declareAll (draft : Draft) (items : List (Item (List Statement))) :
    Except DeclarationError Draft :=
  items.foldlM declare draft

end Draft

end Shading

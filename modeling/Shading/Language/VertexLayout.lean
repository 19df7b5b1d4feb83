import Shading.Language.DataType

/-! What a vertex consists of, and where each part lies in a buffer of vertices. -/

namespace Shading

/-- A part of a vertex with a fixed meaning. -/
inductive VertexComponent
  | position | normal | texCoord | colour | tangent | bitangent
deriving DecidableEq, Inhabited

namespace VertexComponent

/-- The name of a component, which is also its name in written shaders. -/
def name : VertexComponent → String
  | position => "Position"
  | normal => "Normal"
  | texCoord => "TexCoord"
  | colour => "Colour"
  | tangent => "Tangent"
  | bitangent => "Bitangent"

/-- The component with a given name. -/
def ofName? : String → Option VertexComponent
  | "Position" => some position
  | "Normal" => some normal
  | "TexCoord" => some texCoord
  | "Colour" => some colour
  | "Tangent" => some tangent
  | "Bitangent" => some bitangent
  | _ => none

/-- Reading the name of a component gives the component back. -/
theorem ofName?_name (component : VertexComponent) :
    ofName? component.name = some component := by
  -- The six names differ from each other, so none is taken for that of another component.
  cases component <;> rfl

/-- The type of a component in the vertex stage. -/
def dataType : VertexComponent → DataType
  | texCoord => .vec2
  | colour => .vec4
  | _ => .vec3

/-- The bytes that a component takes in a buffer, four for each number in it. -/
def size (component : VertexComponent) : Nat :=
  match component.dataType with
  | .vec2 => 2 * 4
  | .vec4 => 4 * 4
  | _ => 3 * 4

end VertexComponent

/-- The components of a vertex in the order in which a buffer holds them. -/
structure VertexLayout where
  components : List VertexComponent := []
deriving DecidableEq, Inhabited

namespace VertexLayout

/-- The bytes that one vertex takes. -/
def vertexSize (layout : VertexLayout) : Nat :=
  layout.components.foldr (fun component total => component.size + total) 0

/-- The offsets of components that follow each other from a given byte on. -/
def offsetsFrom (start : Nat) : List VertexComponent → List Nat
  | [] => []
  | component :: rest => start :: offsetsFrom (start + component.size) rest

/-- The first byte of each component within a vertex. -/
def offsets (layout : VertexLayout) : List Nat :=
  offsetsFrom 0 layout.components

/-- A layout without components. -/
def isEmpty (layout : VertexLayout) : Bool :=
  layout.components.isEmpty

end VertexLayout

end Shading

import Shading.Device
import Shading.Material.Params
import Shading.Uniform.Table

/-! Materials hold the values of uniforms and send to the device what has changed. -/

namespace Shading

/-- A material; it has no program when none could be built for it. -/
structure Material where
  params : MaterialParams
  program : Option DeviceProgram := none
  table : UniformTable := {}
  values : List (String × UniformValue) := []
  /-- The names of changed values, in the order of their first change since they were last sent. -/
  modified : List String := []

namespace Material

/-- The value of a uniform, if it was given one. -/
def value? (material : Material) (name : String) : Option UniformValue :=
  material.values.lookup name

/-- A value is stored already when the value of the uniform is the same. -/
def holds (material : Material) (name : String) (value : UniformValue) : Bool :=
  (material.value? name).any (·.same value)

/-- Stores a value, and marks its uniform as changed. -/
def change (material : Material) (name : String) (value : UniformValue) : Material :=
  { material with
    values := (name, value) :: material.values.filter (·.1 != name)
    modified :=
      if material.modified.contains name then material.modified else material.modified ++ [name] }

/-- Gives a uniform a value of its type; the same value again changes nothing. -/
def setUniform (material : Material) (name : String) (value : UniformValue) :
    Except UniformError Material := do
  material.table.check name value.dataType
  return if material.holds name value then material else material.change name value

/-- Gives a texture its unit. -/
def setTexture (material : Material) (name : String) (unit : UInt32) :
    Except UniformError Material :=
  material.setUniform name (.texture unit)

/-- Sends the value of a uniform to the device, if it has one. -/
def send (material : Material) (device : Device) (name : String) : Device :=
  match material.value? name with
  | some value => device.set name value
  | none => device

/-- Sends the changed values to the device, whose active program has to be that of the material. -/
def flush (material : Material) (device : Device) : Material × Device :=
  ({ material with modified := [] }, material.modified.foldl material.send device)

/-- The outcome of making a material ready to be drawn with. -/
structure Binding where
  /-- There is a program to draw with. -/
  ready : Bool
  material : Material
  device : Device

/-- Makes the program of a material active and sends the changed values to it. -/
def bind (material : Material) (device : Device) : Binding :=
  match material.program with
  | none => ⟨false, material, device⟩
  | some program =>
    let (flushed, written) := material.flush (device.activate program)
    ⟨true, flushed, written⟩

end Material

end Shading

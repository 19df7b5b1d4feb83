import Shading.Uniform.Value
import Shading.Writer

/-! The device that written programs run on, known by what it was asked to do. -/

namespace Shading

/-- A program on the device; the first one has the number one. -/
structure DeviceProgram where
  number : Nat
deriving DecidableEq, Inhabited

/-- Something that a device was asked to do. -/
inductive DeviceCall
  | create (vertex fragment : String)
  | activate (program : DeviceProgram)
  | set (name : String) (value : UniformValue)
deriving DecidableEq

/-- A device, with the calls to it in their order. -/
structure Device where
  calls : List DeviceCall := []
  /-- The number of programs on the device. -/
  programs : Nat := 0
  /-- Why programs are turned down, while they are. -/
  rejection : Option String := none

namespace Device

/-- Adds a call to those made so far. -/
def record (device : Device) (call : DeviceCall) : Device :=
  { device with calls := device.calls ++ [call] }

/-- Asks for a program of its own for some written texts, which may be turned down. -/
def create (device : Device) (converted : Converted) : Except String DeviceProgram × Device :=
  let asked := device.record (.create converted.vertex converted.fragment)
  match device.rejection with
  | some reason => (.error reason, asked)
  | none => (.ok ⟨device.programs + 1⟩, { asked with programs := device.programs + 1 })

/-- Makes a program the one that values are written to. -/
def activate (device : Device) (program : DeviceProgram) : Device :=
  device.record (.activate program)

/-- Writes a value to the active program. -/
def set (device : Device) (name : String) (value : UniformValue) : Device :=
  device.record (.set name value)

end Device

end Shading

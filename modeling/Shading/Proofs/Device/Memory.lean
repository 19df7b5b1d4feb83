import Shading.Device

/-! What calls leave behind on a device: the active program, and the values that programs hold. -/

namespace Shading

/-- The active program of a device, and the value that each of its programs holds under a name. -/
structure DeviceMemory where
  active : Option DeviceProgram
  held : DeviceProgram → String → Option UniformValue

namespace DeviceMemory

/-- Before the first call, no program is active and none holds a value. -/
def blank : DeviceMemory :=
  ⟨none, fun _ _ => none⟩

/-- Writes a value into the active program. -/
def write (memory : DeviceMemory) (name : String) (value : UniformValue) : DeviceMemory :=
  { memory with
    held := fun program other =>
      -- All other programs keep what they hold.
      if memory.active = some program ∧ other = name then some value
      else memory.held program other }

/-- What a call leaves behind. -/
def call (memory : DeviceMemory) : DeviceCall → DeviceMemory
  | .create _ _ => memory
  | .activate program => { memory with active := some program }
  | .set name value => memory.write name value

end DeviceMemory

namespace Device

/-- What all calls to a device leave behind. -/
def memory (device : Device) : DeviceMemory :=
  device.calls.foldl .call .blank

variable (device : Device)

/-- A further call changes what the calls before it left behind. -/
theorem memory_record (call : DeviceCall) : (device.record call).memory = device.memory.call call := by
  -- The memory is a fold over the record, to which the call is added at the end.
  simp [memory, record]

@[simp] theorem memory_activate (program : DeviceProgram) :
    (device.activate program).memory = { device.memory with active := some program } :=
  -- Activating is recorded as a call.
  device.memory_record (.activate program)

@[simp] theorem memory_set (name : String) (value : UniformValue) :
    (device.set name value).memory = device.memory.write name value :=
  -- Setting is recorded as a call.
  device.memory_record (.set name value)

@[simp] theorem programs_activate (program : DeviceProgram) :
    (device.activate program).programs = device.programs := rfl

@[simp] theorem programs_set (name : String) (value : UniformValue) :
    (device.set name value).programs = device.programs := rfl

/-- Asking for a program leaves everything as it is, except that there may be a new program. -/
theorem create_spec (converted : Converted) :
    (device.create converted).2.memory = device.memory ∧
      ((∃ reason, (device.create converted).1 = .error reason ∧
          (device.create converted).2.programs = device.programs) ∨
        (device.create converted).1 = .ok ⟨device.programs + 1⟩ ∧
          (device.create converted).2.programs = device.programs + 1) := by
  -- The request is recorded in any case; whether the device rejects it decides about the rest.
  have asked := device.memory_record (.create converted.vertex converted.fragment)
  unfold create
  cases device.rejection with
  | some reason => exact ⟨asked, .inl ⟨reason, rfl, rfl⟩⟩
  | none => exact ⟨asked, .inr ⟨rfl, rfl⟩⟩

end Device

end Shading

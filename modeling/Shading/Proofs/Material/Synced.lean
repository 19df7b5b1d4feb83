import Shading.Material.Basic
import Shading.Proofs.Defines.Lookup
import Shading.Proofs.Device.Memory

/-! What a material has not sent to the device is known, and everything else is there. -/

namespace Shading

namespace Material

variable (m : Material)

/-- After a value is stored, it is the one under its name, and all others are as before. -/
theorem value?_change (name : String) (value : UniformValue) (other : String) :
    (m.change name value).value? other = if other = name then some value else m.value? other := by
  -- The value is put in front, and all others under its name are dropped.
  unfold value? change
  by_cases same : other = name
  · simp [same]
  · have differs : (other == name) = false := by simpa using same
    simp [List.lookup_cons, same, differs, lookup_filter_ne same]

/-- A changed name is one that was changed before or the name of the new value. -/
theorem mem_modified_change (name : String) (value : UniformValue) (other : String) :
    other ∈ (m.change name value).modified ↔ other ∈ m.modified ∨ other = name := by
  unfold change
  -- A name that waits already is not added once more.
  by_cases before : name ∈ m.modified
  · simp only [List.contains_iff_mem, before, if_true]
    constructor
    · exact .inl
    · rintro (member | rfl)
      · exact member
      · exact before
  · simp [before]

/-- Every value that does not wait to be sent is held by the program, and those that wait exist. -/
structure Synced (memory : DeviceMemory) : Prop where
  sent : ∀ {program}, m.program = some program → ∀ {name}, name ∉ m.modified →
    memory.held program name = m.value? name
  stored : ∀ {name}, name ∈ m.modified → ∃ value, m.value? name = some value

variable {m}

/-- A stored value waits to be sent, so that nothing is claimed of the program under its name. -/
theorem Synced.change {memory : DeviceMemory} (synced : m.Synced memory) (name : String)
    (value : UniformValue) : (m.change name value).Synced memory := by
  constructor
  · -- What is not modified now has another name, and was not modified before.
    intro program found other notModified
    rw [mem_modified_change, not_or] at notModified
    rw [value?_change, if_neg notModified.2]
    exact synced.sent found notModified.1
  · -- Each name that waits has a value, be it the new one or one from before.
    intro other modified
    rw [value?_change]
    by_cases same : other = name
    · exact ⟨value, if_pos same⟩
    · rw [if_neg same]
      exact synced.stored (((mem_modified_change m name value other).mp modified).resolve_right same)

/-- A material is in step with every memory in which its program holds the same values. -/
theorem Synced.transfer {memory memory' : DeviceMemory} (synced : m.Synced memory)
    (same : ∀ {program}, m.program = some program → ∀ name,
      memory'.held program name = memory.held program name) : m.Synced memory' := by
  -- The invariant only asks what the own program of the material holds.
  refine ⟨fun found name sent => ?_, synced.stored⟩
  rw [same found name]
  exact synced.sent found sent

/-- A value that is accepted is stored, unless the same one is stored already. -/
theorem setUniform_cases {name : String} {value : UniformValue} {after : Material}
    (done : m.setUniform name value = .ok after) : after = m ∨ after = m.change name value := by
  unfold Material.setUniform at done
  -- A refused value gives no material at all.
  cases checked : m.table.check name value.dataType with
  | error fault =>
    rw [checked] at done
    cases done
  | ok =>
    rw [checked] at done
    obtain rfl := Except.ok.inj done
    -- The value is compared with the stored one before it is stored.
    by_cases same : m.holds name value = true
    · exact .inl (if_pos same)
    · exact .inr (if_neg same)

/-- A sent value is written into the active program, and a name without a value is passed over. -/
theorem memory_send (device : Device) (name : String) :
    (m.send device name).memory =
      match m.value? name with
      | some value => device.memory.write name value
      | none => device.memory := by
  -- Only a value that is stored is written.
  unfold send
  cases m.value? name <;> simp

/-- Sending a value makes no program and activates none. -/
theorem send_keeps (device : Device) (name : String) :
    (m.send device name).programs = device.programs ∧
      (m.send device name).memory.active = device.memory.active := by
  -- A call that writes a value changes only what the active program holds.
  unfold send
  cases m.value? name <;> simp [DeviceMemory.write]

/-- Sending values makes no program and activates none. -/
theorem sendAll_keeps (names : List String) (device : Device) :
    (names.foldl m.send device).programs = device.programs ∧
      (names.foldl m.send device).memory.active = device.memory.active := by
  -- Name by name, as sending one keeps both.
  induction names generalizing device with
  | nil => exact ⟨rfl, rfl⟩
  | cons name names ih =>
    obtain ⟨programs, active⟩ := ih (m.send device name)
    obtain ⟨programsFirst, activeFirst⟩ := send_keeps (m := m) device name
    exact ⟨programs.trans programsFirst, active.trans activeFirst⟩

/-- Programs that are not active keep what they hold when values are sent. -/
theorem sendAll_others (names : List String) (device : Device) {program : DeviceProgram}
    (other : device.memory.active ≠ some program) (name : String) :
    (names.foldl m.send device).memory.held program name = device.memory.held program name := by
  induction names generalizing device with
  | nil => rfl
  | cons first names ih =>
    -- Sending activates nothing, so the other program stays inactive.
    have stillOther : (m.send device first).memory.active ≠ some program := by
      rw [(send_keeps device first).2]
      exact other
    rw [List.foldl_cons, ih _ stillOther, memory_send]
    cases m.value? first <;> simp [DeviceMemory.write, other]

/-- The active program holds the stored values of all names that were sent, and else what it held. -/
theorem sendAll_active (names : List String) (device : Device) {program : DeviceProgram}
    (active : device.memory.active = some program) (name : String) {expected : Option UniformValue}
    (sent : name ∈ names → ∃ value, m.value? name = some value)
    (stored : m.value? name = expected)
    (before : name ∉ names → device.memory.held program name = expected) :
    (names.foldl m.send device).memory.held program name = expected := by
  -- By the names, with what is held after the first one as the state in front of the others.
  induction names generalizing device with
  | nil => exact before List.not_mem_nil
  | cons first names ih =>
    have stillActive : (m.send device first).memory.active = some program := by
      rw [(send_keeps device first).2]
      exact active
    refine ih _ stillActive (fun later => sent (List.mem_cons_of_mem first later)) fun notLater => ?_
    rw [memory_send]
    by_cases now : name = first
    · -- Nothing that is sent later goes under this name.
      subst now
      obtain ⟨value, found⟩ := sent List.mem_cons_self
      simp [found, DeviceMemory.write, active, ← stored]
    · have heldBefore := before (by simp [now, notLater])
      cases m.value? first <;> simp [DeviceMemory.write, now, heldBefore]

/-- A step of a material on a device that concerns no program but that of the material. -/
structure Local (m : Material) (device : Device) (after : Material) (written : Device) : Prop where
  program : after.program = m.program
  programs : written.programs = device.programs
  others : ∀ {program}, m.program ≠ some program → ∀ name,
    written.memory.held program name = device.memory.held program name
  synced : m.Synced device.memory → after.Synced written.memory

/-- Sending the changed values leaves none to be sent, if the program of the material is active. -/
theorem flush_local {device : Device} {program : DeviceProgram} (found : m.program = some program)
    (active : device.memory.active = some program) :
    Local m device (m.flush device).1 (m.flush device).2 where
  program := rfl
  programs := (sendAll_keeps m.modified device).1
  others := by
    intro other differs name
    refine sendAll_others m.modified device ?_ name
    rwa [active, ← found]
  synced := by
    intro synced
    refine ⟨?_, fun modified => by cases modified⟩
    intro own same name _
    -- What does not wait was held before; what waits is sent now.
    obtain rfl := Option.some.inj (found.symm.trans same)
    exact sendAll_active m.modified device active name synced.stored rfl (synced.sent found)

/-- Activating a program leaves what programs hold as it is. -/
theorem Synced.activate {device : Device} (synced : m.Synced device.memory)
    (program : DeviceProgram) : m.Synced (device.activate program).memory := by
  -- The memory is the same but for the active program.
  rw [Device.memory_activate]
  exact synced.transfer fun _ _ => rfl

/-- Binding a material concerns its own program only. -/
theorem bind_local (device : Device) : Local m device (m.bind device).material (m.bind device).device := by
  unfold bind
  cases found : m.program with
  | none => exact ⟨rfl, rfl, fun _ _ => rfl, id⟩
  -- The program is activated before anything is sent to it.
  | some program =>
    have flushed : Local m (device.activate program) _ _ := flush_local found (by simp)
    refine ⟨flushed.program, flushed.programs, fun other name => ?_, fun synced => ?_⟩
    · rw [flushed.others other name, Device.memory_activate]
    · exact flushed.synced (synced.activate program)

/-- A material with a program is bound by activating it and sending what has changed. -/
theorem bind_eq {program : DeviceProgram} (found : m.program = some program) (device : Device) :
    m.bind device =
      ⟨true, { m with modified := [] }, m.modified.foldl m.send (device.activate program)⟩ := by
  -- The program is given, so that the definition takes its second branch.
  rcases m with ⟨params, _, table, values, modified⟩
  simp only at found
  subst found
  rfl

/-- A bound material is ready when it has a program, which is active then and holds all values. -/
theorem bind_ready {device : Device} (synced : m.Synced device.memory)
    (ready : (m.bind device).ready = true) :
    (m.bind device).material = { m with modified := [] } ∧
      ∃ program, m.program = some program ∧ (m.bind device).device.memory.active = some program ∧
        ∀ name, (m.bind device).device.memory.held program name = m.value? name := by
  have after := (bind_local device).synced synced
  obtain ⟨program, found⟩ : ∃ program, m.program = some program := by
    cases found : m.program with
    | none => simp [bind, found] at ready
    | some program => exact ⟨program, rfl⟩
  rw [bind_eq found] at after ⊢
  refine ⟨rfl, program, found, ?_, fun name => ?_⟩
  · exact (sendAll_keeps m.modified (device.activate program)).2.trans (by simp)
  · -- Nothing waits to be sent any more.
    exact after.sent found List.not_mem_nil

end Material

end Shading

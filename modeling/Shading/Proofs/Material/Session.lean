import Shading.Material.Factory
import Shading.Proofs.Material.Synced

/-! Any number of materials on one device: each program holds exactly the values of its material. -/

namespace Shading

/-- A material that was just made: it stores nothing, and its program is new if it has one. -/
structure Arrival (device : Device) (m : Material) (after : Device) : Prop where
  values : m.values = []
  modified : m.modified = []
  memory : after.memory = device.memory
  program : m.program = none ∧ after.programs = device.programs ∨
    m.program = some ⟨device.programs + 1⟩ ∧ after.programs = device.programs + 1

/-- A request for a material makes one, or leaves the device as it is but for the request. -/
theorem Factory.tryCreate_spec (factory : Factory) (files : FileSystem) (device : Device)
    (params : MaterialParams) :
    let reply := factory.tryCreate files device params
    (∃ m, reply.answer = .ok m ∧ Arrival device m reply.device) ∨
      ∃ error, reply.answer = .error error ∧ reply.device.memory = device.memory ∧
        reply.device.programs = device.programs := by
  -- Only a source that was read and written is put on the device.
  dsimp only [tryCreate]
  split
  · rename_i error _
    exact .inr ⟨_, rfl, rfl, rfl⟩
  · split
    · exact .inr ⟨_, rfl, rfl, rfl⟩
    · rename_i artifact _
      obtain ⟨memory, ⟨reason, created, programs⟩ | ⟨created, programs⟩⟩ :=
        device.create_spec artifact.converted
      · -- A program that is turned down takes no number.
        exact .inr ⟨.device reason, by simp [place, created], memory, programs⟩
      · left
        refine ⟨{ params, program := some ⟨device.programs + 1⟩, table := artifact.converted.uniforms },
          by simp only [place, created], ?_⟩
        exact ⟨rfl, rfl, memory, .inr ⟨rfl, programs⟩⟩

/-- Whatever is wrong with a description, there is a material for it. -/
theorem Factory.create_spec (factory : Factory) (files : FileSystem) (device : Device)
    (params : MaterialParams) :
    let reply := factory.create files device params
    Arrival device reply.answer reply.device := by
  -- A failure takes nothing from the device, so that the substitute is in step with it.
  dsimp only [create]
  rcases factory.tryCreate_spec files device params with
    ⟨m, answer, arrival⟩ | ⟨error, answer, memory, programs⟩
  · simpa only [answer] using arrival
  · simpa only [answer] using ⟨rfl, rfl, memory, .inl ⟨rfl, programs⟩⟩

/-- Materials, the device they are on and the factory they are made by. -/
structure Session where
  factory : Factory
  files : FileSystem
  device : Device
  materials : List Material := []

/-- Something that is done with a single material. -/
inductive MaterialAction
  | setUniform (name : String) (value : UniformValue)
  | setTexture (name : String) (unit : UInt32)
  | flush
  | bind

namespace MaterialAction

/-- What a material is after a value was given to it; a value that is refused changes nothing. -/
def orKeep (m : Material) : Except UniformError Material → Material
  | .ok after => after
  | .error _ => m

/-- Does something with a material, which may write to the device. -/
def apply (m : Material) (device : Device) : MaterialAction → Material × Device
  | setUniform name value => (orKeep m (m.setUniform name value), device)
  | setTexture name unit => (orKeep m (m.setTexture name unit), device)
  | flush => m.flush device
  | bind => ((m.bind device).material, (m.bind device).device)

/-- Changed values are sent outside of a binding only while the program of the material is active. -/
def Permitted (m : Material) (device : Device) : MaterialAction → Prop
  | flush => ∃ program, m.program = some program ∧ device.memory.active = some program
  | _ => True

/-- What is done with a material concerns no program but its own, and keeps it in step with it. -/
theorem apply_local {m : Material} {device : Device} {action : MaterialAction}
    (permitted : action.Permitted m device) :
    Material.Local m device (action.apply m device).1 (action.apply m device).2 := by
  -- A refused value changes nothing, and an accepted one nothing on the device.
  have write : ∀ (name : String) (value : UniformValue),
      Material.Local m device (orKeep m (m.setUniform name value)) device := by
    intro name value
    cases done : m.setUniform name value with
    | error => exact ⟨rfl, rfl, fun _ _ => rfl, fun synced => synced⟩
    | ok after =>
      rcases Material.setUniform_cases done with rfl | rfl
      · exact ⟨rfl, rfl, fun _ _ => rfl, fun synced => synced⟩
      · exact ⟨rfl, rfl, fun _ _ => rfl, fun synced => synced.change name value⟩
  cases action with
  | setUniform name value => exact write name value
  | setTexture name unit => exact write name (.texture unit)
  -- Sending needs the own program to be the active one.
  | flush =>
    obtain ⟨program, found, active⟩ := permitted
    exact Material.flush_local found active
  | bind => exact Material.bind_local device

end MaterialAction

namespace Session

/-- A step of a session: a material is made, something is done with one, or the surroundings change. -/
inductive Operation
  | create (params : MaterialParams)
  | tryCreate (params : MaterialParams)
  | act (index : Nat) (action : MaterialAction)
  | parseSource (name source : String) (defines : Defines)
  | clear
  | provide (files : FileSystem)
  | reject (reason : Option String)

/-- The operation is something that is done with this material. -/
def Operation.Concerns (index : Nat) : Operation → Prop
  | act other _ => other = index
  | _ => False

/-- The session with another material in the place of one, and the device that this left behind. -/
def put (session : Session) (index : Nat) (after : Material) (written : Device) : Session :=
  { session with device := written, materials := session.materials.set index after }

/-- Does something with the material of a number, if there is one. -/
def act (session : Session) (index : Nat) (action : MaterialAction) : Session :=
  match session.materials[index]? with
  | none => session
  | some m => session.put index (action.apply m session.device).1 (action.apply m session.device).2

/-- The session after an operation. -/
def step (session : Session) : Operation → Session
  | .create params =>
    let made := session.factory.create session.files session.device params
    { session with
      factory := made.factory
      device := made.device
      materials := session.materials ++ [made.answer] }
  | .tryCreate params =>
    let tried := session.factory.tryCreate session.files session.device params
    { session with
      factory := tried.factory
      device := tried.device
      materials := session.materials ++ tried.answer.toOption.toList }
  | .act index action => session.act index action
  | .parseSource name source defines =>
    { session with factory := (session.factory.parseSource name source defines).2 }
  | .clear => { session with factory := session.factory.clear }
  | .provide files => { session with files }
  | .reject reason => { session with device := { session.device with rejection := reason } }

/-- Everything may be done at any time, except for what materials do not permit. -/
def Permits (session : Session) : Operation → Prop
  | .act index action => ∀ m, session.materials[index]? = some m → action.Permitted m session.device
  | _ => True

/-- Nothing was made yet, and nothing was asked of the device. -/
structure IsNew (session : Session) : Prop where
  calls : session.device.calls = []
  programs : session.device.programs = 0
  materials : session.materials = []

/-- The sessions that permitted operations lead to. -/
inductive Reachable : Session → Prop
  | start {session} : session.IsNew → Reachable session
  | step {session operation} :
    Reachable session → session.Permits operation → Reachable (session.step operation)

/-- Every program belongs to one material, and holds what this material has sent and stores. -/
structure Consistent (session : Session) : Prop where
  synced : ∀ {index : Nat} {m : Material}, session.materials[index]? = some m → m.Synced session.device.memory
  known : ∀ {index : Nat} {m : Material} {program}, session.materials[index]? = some m → m.program = some program →
    program.number ≤ session.device.programs
  distinct : ∀ {index index' : Nat} {m m' : Material} {program}, session.materials[index]? = some m →
    session.materials[index']? = some m' → m.program = some program → m'.program = some program →
    index = index'
  -- Numbers that are not yet given out name no values, so a new program starts without any.
  blank : ∀ {program : DeviceProgram}, session.device.programs < program.number →
    ∀ name, session.device.memory.held program name = none

variable {session : Session}

/-- Without materials and calls there is nothing to agree on. -/
theorem IsNew.consistent (isNew : session.IsNew) : session.Consistent where
  synced := by simp [isNew.materials]
  known := by simp [isNew.materials]
  distinct := by simp [isNew.materials]
  -- No program holds a value before the first call.
  blank := by simp [Device.memory, isNew.calls, DeviceMemory.blank]

section Put

variable {index : Nat} {changed after : Material} {written : Device}

/-- A material is the one that was put in a place, or stands in another place and is as before. -/
theorem put_cases (acted : session.materials[index]? = some changed) {other : Nat} {m : Material}
    (found : (session.put index after written).materials[other]? = some m) :
    other = index ∧ m = after ∨ index ≠ other ∧ session.materials[other]? = some m := by
  -- Only the place that is put into gets another material.
  by_cases same : index = other
  · subst same
    have bound := (List.getElem?_eq_some_iff.mp acted).1
    rw [put, List.getElem?_set_self bound] at found
    exact .inl ⟨rfl, (Option.some.inj found).symm⟩
  · rw [put, List.getElem?_set_ne same] at found
    exact .inr ⟨same, found⟩

/-- A material has the program that the material in its place had before. -/
theorem put_program (acted : session.materials[index]? = some changed)
    (same : after.program = changed.program) {other : Nat} {m : Material}
    (found : (session.put index after written).materials[other]? = some m) :
    ∃ before : Material, session.materials[other]? = some before ∧ before.program = m.program := by
  -- The new material in the place has the program of the old one.
  rcases put_cases acted found with ⟨rfl, rfl⟩ | ⟨-, before⟩
  · exact ⟨changed, acted, same.symm⟩
  · exact ⟨m, before, rfl⟩

/-- A step of one material leaves the programs of all others as they are. -/
theorem Consistent.put_others (consistent : session.Consistent)
    (acted : session.materials[index]? = some changed)
    (isLocal : Material.Local changed session.device after written) {other : Nat} {m : Material}
    (found : session.materials[other]? = some m) (differs : index ≠ other) {program : DeviceProgram}
    (own : m.program = some program) (name : String) :
    written.memory.held program name = session.device.memory.held program name := by
  refine isLocal.others (fun same => ?_) name
  -- The program would belong to both materials.
  exact differs (consistent.distinct acted found same own)

/-- A step of one material keeps all programs in step with their materials. -/
theorem Consistent.put (consistent : session.Consistent)
    (acted : session.materials[index]? = some changed)
    (isLocal : Material.Local changed session.device after written) :
    (session.put index after written).Consistent where
  synced := by
    intro other m found
    rcases put_cases acted found with ⟨rfl, rfl⟩ | ⟨differs, before⟩
    · exact isLocal.synced (consistent.synced acted)
    · exact (consistent.synced before).transfer fun own name =>
        consistent.put_others acted isLocal before differs own name
  known := by
    intro other m program found own
    obtain ⟨before, foundBefore, same⟩ := put_program acted isLocal.program found
    have within := consistent.known foundBefore (same.trans own)
    exact isLocal.programs ▸ within
  -- No step changes which program a material has.
  distinct := by
    intro first second m m' program found found' own own'
    obtain ⟨before, foundBefore, same⟩ := put_program acted isLocal.program found
    obtain ⟨before', foundBefore', same'⟩ := put_program acted isLocal.program found'
    exact consistent.distinct foundBefore foundBefore' (same.trans own) (same'.trans own')
  blank := by
    intro program beyond name
    have beyond : session.device.programs < program.number := isLocal.programs ▸ beyond
    -- No program of a material lies beyond those on the device.
    have foreign : changed.program ≠ some program := fun own =>
      absurd (consistent.known acted own) (Nat.not_le_of_lt beyond)
    exact (isLocal.others foreign name).trans (consistent.blank beyond name)

end Put

/-- What is done with a material keeps all programs in step with their materials. -/
theorem Consistent.act (consistent : session.Consistent) {index : Nat} {action : MaterialAction}
    (permitted : session.Permits (.act index action)) : (session.act index action).Consistent := by
  -- Without a material in the place nothing happens.
  unfold Session.act
  cases acted : session.materials[index]? with
  | none => exact consistent
  | some m => exact consistent.put acted (MaterialAction.apply_local (permitted m acted))

/-- A material that was just made stores nothing, and its program holds nothing. -/
theorem Consistent.arrive (consistent : session.Consistent) {m : Material} {after : Device}
    (arrival : Arrival session.device m after) (factory : Factory) :
    Consistent { session with factory, device := after, materials := session.materials ++ [m] } := by
  -- A material is the new one, behind all others, or one that was there before.
  have material : ∀ {index : Nat} {m' : Material}, (session.materials ++ [m])[index]? = some m' →
      session.materials[index]? = some m' ∨ index = session.materials.length ∧ m' = m := by
    intro index m' found
    rcases Nat.lt_or_ge index session.materials.length with before | behind
    · rw [List.getElem?_append_left before] at found
      exact .inl found
    · rw [List.getElem?_append_right behind, List.getElem?_singleton] at found
      split at found
      · exact .inr ⟨by omega, (Option.some.inj found).symm⟩
      · cases found
  have more : session.device.programs ≤ after.programs := by
    rcases arrival.program with ⟨-, same⟩ | ⟨-, one⟩ <;> omega
  -- The program of the new material has the first number that was not given out.
  have newest : ∀ {program}, m.program = some program →
      program.number = session.device.programs + 1 ∧ after.programs = session.device.programs + 1 := by
    intro program own
    rcases arrival.program with ⟨none, -⟩ | ⟨some, one⟩
    · rw [none] at own
      cases own
    · rw [some] at own
      cases own
      exact ⟨rfl, one⟩
  constructor
  case synced =>
    intro index m' found
    simp only [arrival.memory]
    rcases material found with before | ⟨-, rfl⟩
    · exact consistent.synced before
    · -- Neither the material nor its program holds anything yet.
      refine ⟨fun own name _ => ?_, fun modified => ?_⟩
      · rw [consistent.blank (by have := (newest own).1; omega), Material.value?, arrival.values]
        rfl
      · rw [arrival.modified] at modified
        cases modified
  case known =>
    intro index m' program found own
    rcases material found with before | ⟨-, rfl⟩
    · exact Nat.le_trans (consistent.known before own) more
    · have := newest own
      dsimp only
      omega
  case distinct =>
    intro index index' m₁ m₂ program found found' own own'
    -- The program of the new material is none of those that were there before.
    have foreign : ∀ {i : Nat} {old : Material}, session.materials[i]? = some old →
        m.program = some program → old.program ≠ some program := by
      intro i old before new same
      have := consistent.known before same
      have := newest new
      omega
    rcases material found with before | ⟨rfl, rfl⟩ <;> rcases material found' with before' | ⟨rfl, rfl⟩
    · exact consistent.distinct before before' own own'
    · exact absurd own (foreign before own')
    · exact absurd own' (foreign before' own)
    · rfl
  case blank =>
    intro program beyond name
    rw [arrival.memory]
    exact consistent.blank (Nat.lt_of_le_of_lt more beyond) name

/-- Programs and materials that are as they were are still in step. -/
theorem Consistent.unchanged (consistent : session.Consistent) {after : Session}
    (materials : after.materials = session.materials)
    (memory : after.device.memory = session.device.memory)
    (programs : after.device.programs = session.device.programs) : after.Consistent := by
  -- The invariant only speaks of what is unchanged.
  constructor
  · rw [materials, memory]
    exact consistent.synced
  · rw [materials, programs]
    exact consistent.known
  · rw [materials]
    exact consistent.distinct
  · rw [memory, programs]
    exact consistent.blank

/-- Every permitted operation keeps all programs in step with their materials. -/
theorem Consistent.step (consistent : session.Consistent) {operation : Operation}
    (permitted : session.Permits operation) : (session.step operation).Consistent := by
  cases operation with
  | create params => exact consistent.arrive (Factory.create_spec _ _ _ params) _
  | tryCreate params =>
    -- A material that is refused leaves no trace, and one that is made arrives behind all others.
    rcases session.factory.tryCreate_spec session.files session.device params with
      ⟨m, answer, arrival⟩ | ⟨error, answer, memory, programs⟩
    · have arrived := consistent.arrive arrival (session.factory.tryCreate session.files session.device params).factory
      simpa [Session.step, answer, Except.toOption] using arrived
    · refine consistent.unchanged ?_ memory programs
      simp [Session.step, answer, Except.toOption]
  | act index action => exact consistent.act permitted
  -- The other operations touch neither what the device holds nor any material.
  | parseSource | clear | provide | reject => exact consistent.unchanged rfl rfl rfl

/-- In every session that is reached, all programs are in step with their materials. -/
theorem Reachable.consistent (reached : Reachable session) : session.Consistent := by
  -- By the operations that lead to the session.
  induction reached with
  | start isNew => exact isNew.consistent
  | step _ permitted ih => exact ih.step permitted

/-- An operation that is not about a material leaves its program as it is. -/
theorem Consistent.step_others (consistent : session.Consistent) {operation : Operation}
    (permitted : session.Permits operation) {index : Nat} {m : Material}
    (found : session.materials[index]? = some m) (other : ¬operation.Concerns index)
    {program : DeviceProgram} (own : m.program = some program) (name : String) :
    (session.step operation).device.memory.held program name =
      session.device.memory.held program name := by
  -- New materials have new programs, and requests to the store reach no program at all.
  cases operation with
  | create params =>
    have arrival := session.factory.create_spec session.files session.device params
    exact congrArg (·.held program name) arrival.memory
  | tryCreate params =>
    rcases session.factory.tryCreate_spec session.files session.device params with
      ⟨_, -, arrival⟩ | ⟨_, -, memory, -⟩
    · exact congrArg (·.held program name) arrival.memory
    · exact congrArg (·.held program name) memory
  | act changed action =>
    simp only [Session.step, Session.act]
    cases acted : session.materials[changed]? with
    | none => rfl
    | some before =>
      -- What is done with the other material reaches no program but its own.
      have isLocal := MaterialAction.apply_local (permitted before acted)
      exact consistent.put_others acted isLocal found other own name
  | parseSource | clear | provide | reject => rfl

/--
Programs hold exactly the values of their materials.

Right after a material was bound and is ready, its program is active.
The program then holds the value that the material stores under each name, and no other.
Operations that are not about a material never change what its program holds.
-/
theorem Reachable.bind_holds (reached : Reachable session) {index : Nat} {m : Material}
    (found : session.materials[index]? = some m) :
    ((m.bind session.device).ready = true →
      let bound := session.step (.act index .bind)
      bound.materials[index]? = some { m with modified := [] } ∧
        ∃ program, m.program = some program ∧ bound.device.memory.active = some program ∧
          ∀ name, bound.device.memory.held program name = m.value? name) ∧
    ∀ operation, session.Permits operation → ¬operation.Concerns index →
      ∀ program, m.program = some program → ∀ name,
        (session.step operation).device.memory.held program name =
          session.device.memory.held program name := by
  have consistent := reached.consistent
  -- The values are those of the invariant, in the state that binding leaves.
  constructor
  · intro ready
    obtain ⟨after, program, own, active, held⟩ := Material.bind_ready (consistent.synced found) ready
    have bound := (List.getElem?_eq_some_iff.mp found).1
    have stepped : session.step (.act index .bind) =
        session.put index (m.bind session.device).material (m.bind session.device).device := by
      simp only [Session.step, Session.act, found]
      rfl
    dsimp only
    rw [stepped]
    refine ⟨?_, program, own, active, held⟩
    rw [put, List.getElem?_set_self bound, after]
  · -- All other operations keep away from the program, whether or not it is active.
    intro operation permitted other program own name
    exact consistent.step_others permitted found other own name

/-- Two materials of one program each keep a value of their own under the same name. -/
theorem Reachable.bind_holds_shared :
    let factory := ((Factory.ofConfig {}).parseSource "gain"
      "uniform int gain; vertex \x7b\x7d fragment \x7b\x7d" .empty).2
    let start : Session := { factory, files := {}, device := {} }
    let made := (start.step (.create ⟨"gain", .empty⟩)).step (.create ⟨"gain", .empty⟩)
    let session := (made.step (.act 0 (.setUniform "gain" (.int 1)))).step
      (.act 1 (.setUniform "gain" (.int 2)))
    let bound := session.step (.act 0 .bind)
    bound.device.memory.active = some ⟨1⟩ ∧
      bound.device.memory.held ⟨1⟩ "gain" = some (.int 1) ∧
      (bound.step (.act 1 .bind)).device.memory.held ⟨1⟩ "gain" = some (.int 1) := by
  intro factory start made session bound
  -- All operations up to the binding are permitted.
  have isNew : start.IsNew := ⟨rfl, rfl, rfl⟩
  have first : Reachable (start.step (.create ⟨"gain", .empty⟩)) := .step (.start isNew) trivial
  have both : Reachable made := .step first trivial
  have given : Reachable (made.step (.act 0 (.setUniform "gain" (.int 1)))) :=
    .step both fun _ _ => trivial
  have reached : Reachable session := .step given fun _ _ => trivial
  have found : session.materials[0]? =
      some ⟨⟨"gain", .empty⟩, some ⟨1⟩, ⟨[⟨.int, "gain"⟩]⟩, [("gain", .int 1)], ["gain"]⟩ := rfl
  obtain ⟨bound₀, program, own, active, held⟩ := (reached.bind_holds found).1 rfl
  obtain rfl := Option.some.inj own
  -- Binding the other material leaves the program of the first one as it is.
  have again : Reachable bound := .step reached fun _ _ => trivial
  have kept := (again.bind_holds bound₀).2 (.act 1 .bind) (fun _ _ => trivial)
    (by simp [Operation.Concerns]) ⟨1⟩ rfl "gain"
  exact ⟨active, held "gain", kept.trans (held "gain")⟩

end Session

end Shading

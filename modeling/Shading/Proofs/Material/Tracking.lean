import Mathlib.Data.List.DropRight
import Mathlib.Data.List.Nodup
import Shading.Proofs.Material.Uniforms

/-! A material sends to the device what was changed since it last did so, each value once. -/

namespace Shading

namespace MaterialAction

/-- The value that an action gives to a name, if it gives one. -/
def write? : MaterialAction → Option (String × UniformValue)
  | setUniform name value => some (name, value)
  | setTexture name unit => some (name, .texture unit)
  | flush | bind => none

/-- Changed values are sent by a flush, and by a binding where there is a program to bind. -/
def sends (program : Option DeviceProgram) : MaterialAction → Bool
  | flush => true
  | bind => program.isSome
  | setUniform .. | setTexture .. => false

/-- Does things with a material, one after the other. -/
def applyAll (m : Material) (device : Device) (run : List MaterialAction) : Material × Device :=
  run.foldl (fun reached action => action.apply reached.1 reached.2) (m, device)

end MaterialAction

namespace UniformValue

/-- The floating-point numbers that a value is made of. -/
def numbers : UniformValue → List Binary32
  | float value => [value]
  | vec2 elements => elements.toList
  | vec3 elements => elements.toList
  | vec4 elements => elements.toList
  | mat3 elements => elements.toList
  | mat4 elements => elements.toList
  | int _ | bool _ | texture _ => []

/-- Numbers are not the same as others with something among them that is no number. -/
theorem sameNumbers_of_nan {n : Nat} {a b : Vector Binary32 n}
    (noNumber : ∃ x ∈ b.toList, x.isNaN = true) : sameNumbers a b = false := by
  obtain ⟨x, member, nan⟩ := noNumber
  obtain ⟨i, within, rfl⟩ := List.mem_iff_getElem.mp member
  have bound : i < (a.toList.zip b.toList).length := by simpa using within
  -- It stands in the same place as one of the other numbers.
  have pair := List.getElem_mem bound
  rw [List.getElem_zip] at pair
  refine List.all_eq_false.mpr ⟨_, pair, ?_⟩
  simp only [Binary32.sameNumber, nan]
  simp

/-- No value is the same as one with something in it that is no number. -/
theorem same_of_nan {stored value : UniformValue} (noNumber : ∃ x ∈ value.numbers, x.isNaN = true) :
    stored.same value = false := by
  -- Values of different types are never the same, and numbers are compared one by one.
  cases stored <;> cases value <;> try rfl
  case float.float a b =>
    have nan : b.isNaN = true := by simpa [numbers] using noNumber
    simp [same, Binary32.sameNumber, nan]
  case int.int | bool.bool | texture.texture => simp [numbers] at noNumber
  all_goals exact sameNumbers_of_nan noNumber

end UniformValue

/-- The latest value that was given to a name. -/
def latest (changes : List (String × UniformValue)) (name : String) : Option UniformValue :=
  changes.reverse.lookup name

namespace UniformTable

variable (table : UniformTable)

/-- A value for a uniform of its type is a change, unless the latest one is the same. -/
def isChange (changes : List (String × UniformValue)) (write : String × UniformValue) : Bool :=
  table.get? write.1 == some write.2.dataType && !(latest changes write.1).any (·.same write.2)

/-- The changes among values that are given to names one after the other, with others before them. -/
def changes (before : List (String × UniformValue)) :
    List (String × UniformValue) → List (String × UniformValue)
  | [] => []
  | write :: rest =>
    if table.isChange before write then write :: changes (before ++ [write]) rest
    else changes before rest

/-- What is a change depends on the values before it only through the changes among these. -/
theorem changes_append (before writes more : List (String × UniformValue)) :
    table.changes before (writes ++ more) =
      table.changes before writes ++ table.changes (before ++ table.changes before writes) more := by
  -- Along the first writes; each of them counts for those behind it.
  induction writes generalizing before with
  | nil => simp [changes]
  | cons write writes ih => cases isChange : table.isChange before write <;> simp [changes, isChange, ih]

/-- A uniform has a type when nothing is wrong with giving it a value of this type. -/
theorem check_eq_ok_iff {name : String} {type : DataType} :
    table.check name type = .ok () ↔ table.get? name = some type := by
  -- The check looks up the name, and then compares the types.
  unfold check
  cases table.get? name with
  | none => exact ⟨nofun, nofun⟩
  | some declared => simp

end UniformTable

/-- A new value is the latest one under its name. -/
theorem latest_concat (changes : List (String × UniformValue)) (write : String × UniformValue)
    (name : String) :
    latest (changes ++ [write]) name = if name = write.1 then some write.2 else latest changes name := by
  -- The latest value is found first from the end.
  rw [latest, List.reverse_append, List.reverse_singleton, List.singleton_append, List.lookup_cons]
  by_cases same : name = write.1
  · simp [same]
  · have differs : (name == write.1) = false := by simpa using same
    simp only [differs, same, if_false, latest]

/-- A name behind others is kept when it is none of them. -/
theorem eraseDups_concat (names : List String) (name : String) :
    (names ++ [name]).eraseDups =
      if names.eraseDups.contains name then names.eraseDups else names.eraseDups ++ [name] := by
  -- Another name is added at the end unless it is known.
  have alone : [name].eraseDups = [name] := by simp [List.eraseDups_cons]
  rw [List.eraseDups_append]
  by_cases known : name ∈ names <;> simp [List.removeAll, known, alone]

namespace Material

/-- The material is what some changes have made of another one, of which the last ones were not sent. -/
structure Tracks (start m : Material) (changes pending : List (String × UniformValue)) : Prop where
  frame : m = { start with values := m.values, modified := m.modified }
  stored : ∀ name, m.value? name = latest changes name
  typed : ∀ name value, m.value? name = some value → start.table.get? name = some value.dataType
  modified : m.modified = (pending.map (·.1)).eraseDups
  distinct : m.modified.Nodup
  waiting : ∀ name ∈ m.modified, ∃ value, m.value? name = some value

variable {start m : Material} {changes pending : List (String × UniformValue)}

/-- A material that stores nothing was not changed. -/
theorem Tracks.refl (values : start.values = []) (modified : start.modified = []) :
    start.Tracks start [] [] where
  frame := rfl
  stored := by simp [value?, values, latest]
  typed := by simp [value?, values]
  modified := modified
  distinct := by simp [modified]
  waiting := by simp [modified]

/-- A stored value is a change that was not sent. -/
theorem Tracks.change (tracks : start.Tracks m changes pending) {name : String}
    {value : UniformValue} (typed : start.table.get? name = some value.dataType) :
    start.Tracks (m.change name value) (changes ++ [(name, value)]) (pending ++ [(name, value)]) where
  frame := by
    rw [tracks.frame]
    rfl
  -- Each part of the invariant adds the change where the material does.
  stored other := by rw [value?_change, latest_concat, tracks.stored]
  typed other stored := by
    rw [value?_change]
    split
    next same =>
      rintro ⟨⟩
      rw [same, typed]
    next => exact tracks.typed other stored
  modified := by
    rw [List.map_append, List.map_singleton, eraseDups_concat, ← tracks.modified]
    rfl
  distinct := by
    unfold Material.change
    -- A name that waits already keeps its place.
    split
    next => exact tracks.distinct
    next new =>
      have fresh : name ∉ m.modified := by simpa using new
      exact List.concat_eq_append ▸ tracks.distinct.concat fresh
  waiting other := by
    rw [mem_modified_change, value?_change]
    by_cases same : other = name
    · simp [same]
    · simpa [same] using tracks.waiting other

/-- After everything was sent nothing waits. -/
theorem Tracks.sent (tracks : start.Tracks m changes pending) :
    start.Tracks { m with modified := [] } changes [] where
  frame := by rw [tracks.frame]
  stored := tracks.stored
  typed := tracks.typed
  -- Nothing waits, so that there is nothing to tell of it.
  modified := rfl
  distinct := List.nodup_nil
  waiting _ member := by cases member

/-- A material takes the values for uniforms of their types, and changes unless it has them already. -/
theorem orKeep_setUniform (m : Material) (name : String) (value : UniformValue) :
    MaterialAction.orKeep m (m.setUniform name value) =
      if m.table.get? name == some value.dataType && !m.holds name value then m.change name value
      else m := by
  unfold setUniform UniformTable.check
  cases m.table.get? name with
  | none => rfl
  | some declared =>
    -- Whether the value is stored already matters only if its type fits.
    by_cases fits : declared = value.dataType
    · cases m.holds name value <;> simp [fits, MaterialAction.orKeep]
    · have refused : (some declared == some value.dataType) = false := by simpa using fits
      simp only [fits, if_false, refused]
      rfl

/-- What the changes tell of a further value is what the table and the stored values do. -/
theorem Tracks.isChange_eq (tracks : start.Tracks m changes pending) (name : String)
    (value : UniformValue) :
    start.table.isChange changes (name, value) =
      (m.table.get? name == some value.dataType && !m.holds name value) := by
  -- The stored value is that of the latest change, and the table is the one of the start.
  have table : m.table = start.table := by rw [tracks.frame]
  rw [UniformTable.isChange, holds, tracks.stored, table]

/-- A value is a change when it is accepted and the stored one is not the same. -/
theorem Tracks.isChange_iff (tracks : start.Tracks m changes pending) (name : String)
    (value : UniformValue) :
    start.table.isChange changes (name, value) = true ↔
      (∃ after, m.setUniform name value = .ok after) ∧ m.holds name value = false := by
  -- A value is accepted when its type is that of the uniform.
  rw [tracks.isChange_eq, setUniform_eq_ok_iff, UniformTable.check_eq_ok_iff, Bool.and_eq_true,
    beq_iff_eq, Bool.not_eq_true']

/-- A value that is given to a name is stored when it is a change, and ignored when it is none. -/
theorem Tracks.write (tracks : start.Tracks m changes pending) (name : String)
    (value : UniformValue) :
    let now := start.table.changes changes [(name, value)]
    start.Tracks (MaterialAction.orKeep m (m.setUniform name value)) (changes ++ now)
      (pending ++ now) := by
  rw [orKeep_setUniform, ← tracks.isChange_eq, UniformTable.changes]
  cases isChange : start.table.isChange changes (name, value) with
  | true =>
    -- A change is a value of the type that its uniform has.
    have typed : start.table.get? name = some value.dataType := by
      rw [UniformTable.isChange, Bool.and_eq_true] at isChange
      simpa using isChange.1
    exact tracks.change typed
  | false => simpa [UniformTable.changes] using tracks

/-- What is done with a material adds to the changes before it, or sends all that wait. -/
theorem Tracks.apply (tracks : start.Tracks m changes pending) (device : Device)
    (action : MaterialAction) :
    let now := start.table.changes changes ([action].filterMap MaterialAction.write?)
    start.Tracks (action.apply m device).1 (changes ++ now)
      (if action.sends start.program then [] else pending ++ now) := by
  have program : m.program = start.program := by rw [tracks.frame]
  -- Where no value is given there is no change.
  have kept : start.Tracks m (changes ++ []) (pending ++ []) := by simpa using tracks
  have sent : start.Tracks { m with modified := [] } (changes ++ []) [] := by
    simpa using tracks.sent
  -- Values are written, and sending empties what waits.
  cases action with
  | setUniform name value => exact tracks.write name value
  | setTexture name unit => exact tracks.write name (.texture unit)
  | flush => exact sent
  | bind =>
    simp only [MaterialAction.sends, MaterialAction.apply, ← program]
    cases found : m.program with
    | none =>
      have unbound : m.bind device = ⟨false, m, device⟩ := by rw [Material.bind, found]
      rw [unbound]
      exact kept
    | some own =>
      rw [bind_eq found]
      exact sent

/-- All that a run changes is tracked, and what it changed after something was last sent waits. -/
theorem Tracks.applyAll (tracks : start.Tracks start [] []) (device : Device)
    (run : List MaterialAction) :
    let changes before (part : List MaterialAction) :=
      start.table.changes before (part.filterMap MaterialAction.write?)
    let quiet (action : MaterialAction) := !action.sends start.program
    start.Tracks (MaterialAction.applyAll start device run).1 (changes [] run)
      (changes (changes [] (run.rdropWhile quiet)) (run.rtakeWhile quiet)) := by
  intro changes quiet
  have append : ∀ before part more,
      changes before (part ++ more) = changes before part ++ changes (before ++ changes before part) more := by
    intro before part more
    simp only [changes, List.filterMap_append, UniformTable.changes_append]
  -- The last action is on what the actions before it have left.
  induction run using List.reverseRecOn with
  | nil => exact tracks
  | append_singleton run action ih =>
    have reached : MaterialAction.applyAll start device (run ++ [action]) =
        action.apply (MaterialAction.applyAll start device run).1
          (MaterialAction.applyAll start device run).2 := by
      simp [MaterialAction.applyAll]
    have next := ih.apply (MaterialAction.applyAll start device run).2 action
    rw [reached, append, List.nil_append]
    cases sends : action.sends start.program with
    | true =>
      -- Behind an action that sends, the run of quiet ones starts anew.
      have loud : ¬quiet action = true := by simp [quiet, sends]
      rw [sends] at next
      rw [List.rtakeWhile_concat_neg _ _ _ loud]
      exact next
    | false =>
      have silent : quiet action = true := by simp [quiet, sends]
      -- The changes before the last action are those that were sent and those that wait.
      have parts : changes [] run = changes [] (run.rdropWhile quiet) ++
          changes (changes [] (run.rdropWhile quiet)) (run.rtakeWhile quiet) := by
        have split := append [] (run.rdropWhile quiet) (run.rtakeWhile quiet)
        rwa [List.rdropWhile_append_rtakeWhile, List.nil_append] at split
      rw [sends] at next
      rw [List.rtakeWhile_concat_pos _ _ _ silent, List.rdropWhile_concat_pos _ _ _ silent, append,
        ← parts]
      exact next

/-- The stored values of names are sent in their order, one call for each. -/
theorem sendAll_eq {names : List String}
    (stored : ∀ name ∈ names, ∃ value, m.value? name = some value) (device : Device) :
    ∃ sent : List (String × UniformValue), sent.map (·.1) = names ∧
      (∀ write ∈ sent, m.value? write.1 = some write.2) ∧
      names.foldl m.send device =
        { device with calls := device.calls ++ sent.map fun write => .set write.1 write.2 } := by
  induction names generalizing device with
  | nil => exact ⟨[], rfl, by simp, by simp⟩
  | cons name names ih =>
    obtain ⟨⟨value, found⟩, others⟩ := List.forall_mem_cons.mp stored
    obtain ⟨sent, inOrder, each, calls⟩ := ih others (m.send device name)
    refine ⟨(name, value) :: sent, by simp [inOrder], List.forall_mem_cons.mpr ⟨found, each⟩, ?_⟩
    -- The first value goes out before all others.
    rw [List.foldl_cons, calls]
    simp [send, found, Device.set, Device.record]

/-- What a material sends to a device: the latest values of changed names, each in one call. -/
def Sends (changes pending : List (String × UniformValue)) (device after : Device) : Prop :=
  ∃ sent : List (String × UniformValue), sent.map (·.1) = (pending.map (·.1)).eraseDups ∧
    (∀ write ∈ sent, latest changes write.1 = some write.2) ∧
    after = { device with calls := device.calls ++ sent.map fun write => .set write.1 write.2 }

/-- The values that wait are sent, each once and in the order of the first changes. -/
theorem Tracks.sends (tracks : start.Tracks m changes pending) (device : Device) :
    Sends changes pending device (m.modified.foldl m.send device) := by
  -- What waits is in the order of the first changes, and is sent with the latest values.
  obtain ⟨sent, inOrder, each, calls⟩ := sendAll_eq tracks.waiting device
  refine ⟨sent, inOrder.trans tracks.modified, fun write member => ?_, calls⟩
  rw [← tracks.stored, each write member]

/--
After any run a material has changed by exactly the values that were changes when they were given.

Values are stored under the types of their uniforms, and names wait once each.
A value that is refused, or the same as the stored one, changes nothing; one that is no number in
some place is the same as none.
Sending leaves nothing to wait and all values as they are: one call goes out for each name with a
change since something was last sent, with its latest value, in the order of the first changes.
-/
theorem tracks_changes (params : MaterialParams) (program : Option DeviceProgram)
    (table : UniformTable) (device : Device) (run : List MaterialAction) :
    let start : Material := { params, program, table }
    let m := (MaterialAction.applyAll start device run).1
    let changes before (part : List MaterialAction) :=
      table.changes before (part.filterMap MaterialAction.write?)
    let quiet (action : MaterialAction) := !action.sends program
    let all := changes [] run
    let pending := changes (changes [] (run.rdropWhile quiet)) (run.rtakeWhile quiet)
    start.Tracks m all pending ∧
      (∀ name value, table.isChange all (name, value) = true ↔
        (∃ after, m.setUniform name value = .ok after) ∧ m.holds name value = false) ∧
      (∀ (action : MaterialAction) name value, action.write? = some (name, value) →
        (∃ error, m.setUniform name value = .error error) ∨ m.holds name value = true →
        ∀ device, action.apply m device = (m, device)) ∧
      (∀ name value, (∃ x ∈ value.numbers, x.isNaN = true) → m.holds name value = false) ∧
      ∀ device, ∃ after, Sends all pending device after ∧
        m.flush device = ({ m with modified := [] }, after) ∧
        ∀ own, program = some own → ∃ bound, Sends all pending (device.activate own) bound ∧
          m.bind device = ⟨true, { m with modified := [] }, bound⟩ := by
  intro start m changes quiet all pending
  -- All parts follow from the invariant at the end of the run.
  have tracks : start.Tracks m all pending := (Tracks.refl rfl rfl).applyAll device run
  refine ⟨tracks, tracks.isChange_iff, fun action name value given ignored device => ?_,
    fun name value noNumber => ?_, fun device => ?_⟩
  · -- A refused or equal value is ignored by the material, and sending is no such action.
    have kept : MaterialAction.orKeep m (m.setUniform name value) = m := by
      rcases ignored with ⟨error, refused⟩ | holds
      · rw [refused]
        rfl
      · simp [orKeep_setUniform, holds]
    cases action with
    | setUniform | setTexture =>
      cases given
      exact Prod.ext kept rfl
    | flush | bind => cases given
  · -- A value with no number in it is compared with what is stored, if anything is.
    rw [holds]
    cases m.value? name with
    | none => rfl
    | some stored => exact UniformValue.same_of_nan noNumber
  · -- Binding activates the program first, and then sends what waits as a flush does.
    refine ⟨_, tracks.sends device, rfl, fun own found => ⟨_, tracks.sends (device.activate own), ?_⟩⟩
    have program : m.program = some own := by
      rw [tracks.frame]
      exact found
    exact bind_eq program device

/-- A value that was changed and changed back is sent, and one that was given again or refused is not. -/
theorem tracks_changes_reverted :
    let table : UniformTable := ⟨[⟨.int, "gain"⟩, ⟨.int, "bias"⟩]⟩
    let run : List MaterialAction := [.setUniform "gain" (.int 1), .setUniform "bias" (.int 2), .bind,
      .setUniform "bias" (.int 3), .setUniform "gain" (.int 1), .setUniform "bias" (.int 2),
      .setUniform "gain" (.bool true)]
    let start : Material := { params := ⟨"light", .empty⟩, program := some ⟨1⟩, table }
    let m := (MaterialAction.applyAll start {} run).1
    m.flush {} = ({ m with modified := [] }, ({} : Device).set "bias" (.int 2)) := by
  intro table run start m
  obtain ⟨-, -, -, -, sends⟩ := tracks_changes ⟨"light", .empty⟩ (some ⟨1⟩) table {} run
  obtain ⟨_, ⟨sent, inOrder, each, rfl⟩, flushed, -⟩ := sends {}
  -- The theorem leaves one name, and one value for it.
  have names : sent.map (·.1) = ["bias"] := inOrder.trans (by decide)
  obtain ⟨⟨name, value⟩, rfl, rfl⟩ := List.map_eq_singleton_iff.mp names
  have stored : some (UniformValue.int 2) = some value := each ("bias", value) (.head _)
  cases stored
  exact flushed

/-- A value that is no number is never the same as the stored one, and the two zeros are. -/
example :
    let table : UniformTable := ⟨[⟨.float, "gain"⟩, ⟨.float, "bias"⟩]⟩
    let nan : UniformValue := .float ⟨0x7fc00000⟩
    table.changes [] [("gain", nan), ("bias", .float ⟨0⟩), ("gain", nan), ("bias", .float ⟨0x80000000⟩),
      ("gain", .int 1)] = [("gain", nan), ("bias", .float ⟨0⟩), ("gain", nan)] := by
  decide

end Material

end Shading

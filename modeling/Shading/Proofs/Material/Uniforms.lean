import Shading.Proofs.Glsl.Globals
import Shading.Proofs.Material.Forgiving
import Shading.Proofs.Program.Declared

/-! The values that a material takes are those of the uniforms in its source and in its texts. -/

namespace Shading

namespace UniformTable

variable {table : UniformTable} {name : String} {type : DataType}

/-- A name that is found is that of a uniform of the type. -/
theorem mem_of_get? (found : table.get? name = some type) : ⟨type, name⟩ ∈ table.uniforms := by
  -- The first uniform that has the name is found.
  obtain ⟨uniform, first, rfl⟩ := Option.map_eq_some_iff.mp found
  obtain rfl : uniform.name = name := by simpa using List.find?_some first
  exact List.mem_of_find?_eq_some first

/-- A uniform is found by its name when no other one has it. -/
theorem get?_eq_some_iff (distinct : (table.uniforms.map (·.name)).Nodup) :
    table.get? name = some type ↔ ⟨type, name⟩ ∈ table.uniforms := by
  refine ⟨mem_of_get?, fun member => ?_⟩
  -- Something is found under the name, which only this uniform has.
  have found : (table.get? name).isSome = true := by
    rw [get?, Option.isSome_map, List.find?_isSome]
    exact ⟨_, member, by simp⟩
  obtain ⟨type', first⟩ := Option.isSome_iff_exists.mp found
  have same := List.inj_on_of_nodup_map distinct (mem_of_get? first) member rfl
  exact first.trans (congrArg (fun uniform : Declaration => some uniform.type) same)

end UniformTable

namespace Material

variable {m : Material} {name : String} {value : UniformValue}

/-- A value is refused for what is wrong with its name or its type. -/
theorem setUniform_eq_error_iff {error : UniformError} :
    m.setUniform name value = .error error ↔ m.table.check name value.dataType = .error error := by
  -- A refusal is handed on from the check.
  unfold setUniform
  cases m.table.check name value.dataType with
  | error fault => constructor <;> (intro same; cases same; rfl)
  | ok => exact ⟨nofun, nofun⟩

/-- A value is taken when nothing is wrong with its name and its type. -/
theorem setUniform_eq_ok_iff :
    (∃ after, m.setUniform name value = .ok after) ↔
      m.table.check name value.dataType = .ok () := by
  -- With a check that passes, the value is stored or was there before.
  unfold setUniform
  cases m.table.check name value.dataType with
  | error => exact ⟨nofun, nofun⟩
  | ok => exact ⟨fun _ => rfl, fun _ => ⟨_, rfl⟩⟩

end Material

/-- What is done with a material leaves its uniforms as they are. -/
theorem MaterialAction.table_apply (m : Material) (device : Device) (action : MaterialAction) :
    (action.apply m device).1.table = m.table := by
  -- The table is looked into, and never written.
  have write : ∀ name value, (orKeep m (m.setUniform name value)).table = m.table := by
    intro name value
    cases done : m.setUniform name value with
    | error => rfl
    | ok after => rcases Material.setUniform_cases done with rfl | rfl <;> rfl
  -- Setting goes through the same check in both cases, and sending only forgets what waits.
  cases action with
  | setUniform name value => exact write name value
  | setTexture name unit => exact write name (.texture unit)
  | flush => rfl
  | bind =>
    simp only [apply, Material.bind]
    cases m.program <;> rfl

/--
The uniforms of a material are those of a source under some defines, and those of two written texts.

A value is taken exactly for a uniform of its type.
For a name without uniform it is refused as missing, and for one of another type with both types.
-/
structure Material.Matches (m : Material) (version : Glsl.Version) (source : String)
    (defines : Defines) (converted : Converted) : Prop where
  accepts : ∀ name value, (∃ after, m.setUniform name value = .ok after) ↔
    Program.DeclaresUniform source defines ⟨value.dataType, name⟩
  inVertex : ∀ name type, Program.DeclaresUniform source defines ⟨type, name⟩ ↔
    Glsl.uniformLine type name ∈ Glsl.globals version converted.vertex
  inFragment : ∀ name type, Program.DeclaresUniform source defines ⟨type, name⟩ ↔
    Glsl.uniformLine type name ∈ Glsl.globals version converted.fragment
  missing : ∀ name value, m.setUniform name value = .error (.missing name) ↔
    ∀ type, ¬Program.DeclaresUniform source defines ⟨type, name⟩
  mismatched : ∀ name value expected, Program.DeclaresUniform source defines ⟨expected, name⟩ →
    expected ≠ value.dataType →
    m.setUniform name value = .error (.typeMismatch name expected value.dataType)

/-- A material with the uniforms of a program has those of its source and of its texts. -/
theorem Material.matches_of_write {m : Material} {version : Glsl.Version} {name source : String}
    {defines : Defines} {program : Program} {converted : Converted}
    (parsed : Program.parse name defines source = .ok program)
    (written : Glsl.write version program = .ok converted) (exposes : m.table = converted.uniforms) :
    m.Matches version source defines converted := by
  have uniforms : m.table.uniforms = program.uniforms := by
    rw [exposes, Glsl.uniforms_of_write written]
  -- The table is that of the program, which holds the active declarations of the source.
  have found : ∀ name type, m.table.get? name = some type ↔
      Program.DeclaresUniform source defines ⟨type, name⟩ := by
    intro name type
    rw [UniformTable.get?_eq_some_iff (by rw [uniforms]; exact Program.nodup_uniforms parsed),
      uniforms, Program.mem_uniforms_iff parsed]
  -- The texts declare at their top what the program has as uniforms.
  have texts := Glsl.mem_globals_iff (Glsl.hasInlineNames_of_parse parsed) written
  -- A value is accepted exactly where the table has its type.
  refine ⟨fun name value => ?_, fun name type => ?_, fun name type => ?_, fun name value => ?_,
    fun name value expected declares differs => ?_⟩
  · rw [setUniform_eq_ok_iff, ← found, UniformTable.check]
    cases m.table.get? name with
    | none => exact ⟨nofun, nofun⟩
    | some declared => simp
  · rw [(texts type name).1, Program.mem_uniforms_iff parsed]
  · rw [(texts type name).2, Program.mem_uniforms_iff parsed]
  · simp only [setUniform_eq_error_iff, ← found, UniformTable.check]
    cases m.table.get? name with
    | none => simp
    | some declared => by_cases same : declared = value.dataType <;> simp [same]
  · rw [setUniform_eq_error_iff, UniformTable.check, (found name expected).mpr declares]
    exact if_neg differs

namespace Factory

variable {factory : Factory} {files : FileSystem} {device : Device} {params : MaterialParams}

/-- A material for what can be written has its uniforms, unless the device turns it down. -/
theorem Coherent.answer_of_offers (coherent : factory.Coherent) {converted : Converted}
    (offers : (factory.tryCreate files device params).factory.Offers params.call.key converted)
    (accepts : device.rejection = none) :
    ∃ m, (factory.tryCreate files device params).answer = .ok m ∧ m.table = converted.uniforms := by
  obtain ⟨handle, found, succeeded⟩ := offers
  rw [store_tryCreate] at found
  rw [writer_tryCreate] at succeeded
  -- A device that accepts everything makes a material of every artifact.
  have placed : ∃ m, (place params device converted).1 = .ok m ∧ m.table = converted.uniforms := by
    simp only [place, Device.create, accepts]
    exact ⟨_, rfl, rfl⟩
  have reply : factory.store.get files params.path params.defines =
      params.call.ask factory.store files := rfl
  unfold Factory.tryCreate
  rw [reply]
  cases answer : (params.call.ask factory.store files).answer with
  | error error =>
    -- Without an answer nothing is kept under the key, but a program is.
    obtain ⟨same, missing⟩ := Store.ask_of_error answer
    rw [same, missing] at found
    cases found
  | ok other =>
    -- The program that is answered is the one that is kept, for which the writer has one answer.
    obtain rfl := Option.some.inj (found.symm.trans (Store.find?_ask_of_answer answer))
    cases known : factory.conversions.artifact? handle with
    | some artifact =>
      have faithful : factory.writer.write handle.program = .ok artifact.converted :=
        (coherent.withStore files params.call).faithful found known
      obtain rfl := Except.ok.inj (succeeded.symm.trans faithful)
      simp only [answer, Conversions.convert, known]
      exact placed
    | none =>
      simp only [answer, Conversions.convert, known, succeeded]
      exact placed

end Factory

namespace Session

/--
A material takes values for the uniforms that active parts of its source declare, and for no others.

The source is the first text under its key since everything was forgotten.
If it is a program that can be written, and the device accepts it, there is a material for it.
Its uniforms are those that active parts of the source declare, and those that both texts declare
which the device was asked for.
They are so at all times, whatever happens in the session.
-/
theorem uniforms_match (config : Config) (files : FileSystem) (device : Device)
    (run : List Operation) (operation : Operation) (params : MaterialParams) :
    let start : Session := { factory := .ofConfig config, files, device }
    let reached := start.after run
    let next := reached.step operation
    ∀ before call source handle converted, operation.creation? = some params →
      start.library.Origin ((run ++ [operation]).filterMap Operation.request?) before call source
        handle →
      call.SameKey params.call →
      Glsl.write config.version handle.program = .ok converted →
      reached.device.rejection = none →
      ∃ m, (reached.attempt params).answer = .ok m ∧ next.materials = reached.materials ++ [m] ∧
        next.device.requests = reached.device.requests ++ [(converted.vertex, converted.fragment)] ∧
        ∀ later, ∃ m', (next.after later).materials[reached.materials.length]? = some m' ∧
          m'.Matches config.version source params.defines converted := by
  intro start reached next before call source handle converted creates origin same succeeded accepts
  have coherent : reached.factory.Coherent :=
    coherent_after (Factory.coherent_withWriter config (Glsl.writer config.version)) run
  -- Creating a material in the session is the attempt of its factory.
  obtain ⟨factory, asked⟩ : next.factory = (reached.attempt params).factory ∧
      next.device = (reached.attempt params).device := step_creation creates
  -- What comes from the text is what the attempt finds.
  have converts : start.Converts (run ++ [operation]) params converted :=
    ⟨before, call, source, handle, origin, same, succeeded⟩
  have offers : (reached.attempt params).factory.Offers params.call.key converted := by
    have kept := (converts_iff_offers rfl).mp converts
    rw [after_single] at kept
    rwa [← factory]
  -- The offer and the acceptance together make the material.
  obtain ⟨m, made, table⟩ := coherent.answer_of_offers offers accepts
  have requests := (coherent.requests_of_offers offers).2.1
  have materials : next.materials = reached.materials ++ [m] := materials_of_answer creates made
  refine ⟨m, made, materials, asked ▸ requests, fun later => ?_⟩
  have parsed : Program.parse call.name params.defines source = .ok handle.program := by
    have defines : call.defines = params.defines := Defines.ext_get? same.2
    rw [← defines]
    exact origin.loads.parsed
  have found : next.materials[reached.materials.length]? = some m := by
    rw [materials, List.getElem?_concat_length]
  have kept : ∀ m device action, m.table = converted.uniforms →
      (MaterialAction.apply m device action).1.table = converted.uniforms :=
    fun m device action same => (MaterialAction.table_apply m device action).trans same
  -- No action changes the table of a material.
  obtain ⟨m', found', table'⟩ := after_material kept found table later
  exact ⟨m', found', Material.matches_of_write parsed succeeded table'⟩

/-- A material of a source with a uniform in a region that is not taken has the other one only. -/
theorem uniforms_match_region :
    let source := "ifdef tinted \x7b uniform vec3 tint; \x7d uniform int gain; " ++
      "vertex \x7b\x7d fragment \x7b\x7d"
    let start : Session := { factory := .ofConfig {}, files := {}, device := {} }
    let run : List Operation := [.parseSource "gain" source .empty]
    let next := (start.after run).step (.create ⟨"gain", .empty⟩)
    ∃ (m : Material) (converted : Converted), next.materials = [m] ∧
      next.device.requests = [(converted.vertex, converted.fragment)] ∧
      (∃ after, m.setUniform "gain" (.int 1) = .ok after) ∧
      m.setUniform "gain" (.bool true) = .error (.typeMismatch "gain" .int .bool) ∧
      m.setUniform "tint" (.int 1) = .error (.missing "tint") ∧
      Glsl.uniformLine .int "gain" ∈ Glsl.globals (Config.version {}) converted.fragment := by
  intro source start run next
  let params : MaterialParams := ⟨"gain", .empty⟩
  let program : Program := { Program.empty "gain" .empty with
    uniforms := [⟨.int, "gain"⟩], vertex := some [], fragment := some [] }
  have parsed : Program.parse "gain" .empty source = .ok program := by
    simp only [source]
    rfl
  -- The first call for the key has made the program.
  have returned : start.library.Returns (.parseSource "gain" source .empty) ⟨0, program⟩ := by
    simp only [Library.Returns, StoreCall.ask, Store.parseSource, parsed]
    rfl
  obtain ⟨converted, written⟩ : ∃ converted, Glsl.write (Config.version {}) program = .ok converted :=
    ⟨_, rfl⟩
  -- The text is the first one under its key, and nothing came before it.
  have origin : start.library.Origin ((run ++ [Operation.create params]).filterMap Operation.request?) []
      (.parseSource "gain" source .empty) source ⟨0, program⟩ := by
    refine ⟨⟨[.call params.call], rfl, by simp⟩, ?_, ⟨rfl, parsed⟩, returned⟩
    rintro other handle' ⟨before, later, splits, -⟩
    simp at splits
  obtain ⟨m, -, materials, requests, always⟩ := uniforms_match {} {} {} run (.create params) params _ _ _ _ _
    rfl origin ⟨rfl, fun _ => rfl⟩ written rfl
  obtain ⟨m', found, fits⟩ := always []
  obtain rfl : m = m' := by
    have first : next.materials[0]? = some m' := found
    rw [materials] at first
    exact Option.some.inj first
  -- The uniforms of the material are read off its source.
  have declares := Program.mem_uniforms_iff parsed
  have gain := (declares ⟨.int, "gain"⟩).mp (by simp [program])
  refine ⟨m, converted, materials, requests, (fits.accepts _ _).mpr gain,
    fits.mismatched _ _ _ gain (by decide), (fits.missing _ _).mpr fun type declared => ?_,
    (fits.inFragment _ _).mp gain⟩
  simpa [program] using (declares _).mpr declared

end Session

end Shading

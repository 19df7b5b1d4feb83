import Shading.Proofs.Material.Sources

/-! Materials that are made in any case agree with those that may be refused. -/

namespace Shading

/-- Nothing can be done with a material: it takes no values, and asks nothing of any device. -/
structure Material.Inert (m : Material) : Prop where
  program : m.program = none
  refuses : ∀ name value, m.setUniform name value = .error (.missing name)
  refusesTexture : ∀ name unit, m.setTexture name unit = .error (.missing name)
  values : ∀ name, m.value? name = none
  modified : m.modified = []
  unready : ∀ device, m.bind device = ⟨false, m, device⟩
  unsent : ∀ device, m.flush device = (m, device)

/-- A material of which only the description is known is inert. -/
theorem Material.inert_of_params (params : MaterialParams) : Inert { params } where
  program := rfl
  refuses _ _ := rfl
  refusesTexture _ _ := rfl
  values _ := rfl
  modified := rfl
  unready _ := rfl
  unsent _ := rfl

/-- Whatever is done with an inert material leaves it and the device as they are. -/
theorem Material.Inert.apply {m : Material} (inert : m.Inert) (device : Device)
    (action : MaterialAction) : action.apply m device = (m, device) := by
  -- Each action refuses an inert material in its own way.
  cases action with
  | setUniform name value => simp only [MaterialAction.apply, inert.refuses, MaterialAction.orKeep]
  | setTexture name unit =>
    simp only [MaterialAction.apply, inert.refusesTexture, MaterialAction.orKeep]
  | flush => exact inert.unsent device
  | bind => simp only [MaterialAction.apply, inert.unready]

namespace Factory

variable {factory : Factory} {files : FileSystem} {device : Device} {params : MaterialParams}

/-- Where a material can be made, it is made with the same reports. -/
theorem create_of_ok {m : Material} (made : (factory.tryCreate files device params).answer = .ok m) :
    factory.create files device params =
      { factory.tryCreate files device params with answer := m } := by
  -- Only a failure is dealt with differently.
  simp only [create, made]

/-- Where none can be made, there is one of which only the description is known, and a report more. -/
theorem create_of_error {error : MaterialError}
    (failed : (factory.tryCreate files device params).answer = .error error) :
    factory.create files device params =
      { factory.tryCreate files device params with
        answer := { params }
        events := (factory.tryCreate files device params).events ++
          [.materialFailed params.path params.defines error.message] } := by
  -- The material consists of the description, and the failure is reported.
  simp only [create, failed]

/-- The writer is asked for a material in any case as it is for one that may be refused. -/
theorem written_create :
    (factory.create files device params).written = (factory.tryCreate files device params).written := by
  -- The forgiving creation takes what the strict one leaves.
  dsimp only [create]
  cases (factory.tryCreate files device params).answer <;> rfl

end Factory

namespace Session

variable {session : Session} {index : Nat} {m : Material}

/-- An operation leaves a material as it is, or does something with it. -/
theorem step_material (found : session.materials[index]? = some m) (operation : Operation) :
    (session.step operation).materials[index]? = some m ∨
      ∃ action, operation = .act index action ∧
        (session.step operation).materials[index]? = some (action.apply m session.device).1 := by
  -- New materials are put behind all others, so that the place of this one stays.
  have bound := (List.getElem?_eq_some_iff.mp found).1
  cases operation with
  | create params =>
    left
    simpa [step, List.getElem?_append_left bound] using found
  | tryCreate params =>
    left
    simpa [step, List.getElem?_append_left bound] using found
  | act other action =>
    simp only [step, Session.act]
    -- What is done with another material is put into another place.
    by_cases same : other = index
    · subst same
      rw [found]
      exact .inr ⟨action, rfl, by simp only [put, List.getElem?_set_self bound]⟩
    · left
      cases session.materials[other]? with
      | none => exact found
      | some changed =>
        simp only [put, List.getElem?_set_ne same]
        exact found
  | parseSource | clear | provide | reject => exact .inl found

/-- What every action keeps true of a material holds of it after every run. -/
theorem after_material {holds : Material → Prop}
    (kept : ∀ m device action, holds m → holds (MaterialAction.apply m device action).1)
    (found : session.materials[index]? = some m) (first : holds m) (run : List Operation) :
    ∃ m', (session.after run).materials[index]? = some m' ∧ holds m' := by
  -- A step leaves the material as it is or acts on it, and the rest of the run goes on from there.
  induction run generalizing session m with
  | nil => exact ⟨m, found, first⟩
  | cons operation run ih =>
    rcases session.step_material found operation with same | ⟨action, -, acted⟩
    · exact ih same first
    · exact ih acted (kept m session.device action first)

/-- A material that is made stands behind all others. -/
theorem materials_of_answer {operation : Operation} {params : MaterialParams}
    (creates : operation.creation? = some params)
    (made : (session.attempt params).answer = .ok m) :
    (session.step operation).materials = session.materials ++ [m] := by
  -- Both ways of making a material put what they make behind all others.
  cases operation with
  | create other =>
    cases creates
    exact congrArg (session.materials ++ [·])
      (congrArg Factory.Reply.answer (Factory.create_of_ok made))
  | tryCreate other =>
    cases creates
    exact congrArg (fun answer : Except MaterialError Material =>
      session.materials ++ answer.toOption.toList) made
  | act | parseSource | clear | provide | reject => cases creates

/--
A material that is made in any case agrees with one that may be refused.

Both leave the same programs and artifacts behind, ask the writer alike and ask the device alike.
If there is a material, both give the same one.
If there is none, the one that is made nevertheless stays inert, whatever happens in the session.
-/
theorem create_agrees (session : Session) (params : MaterialParams) :
    let strict := session.attempt params
    let forgiving := session.factory.create session.files session.device params
    let made := session.step (.create params)
    forgiving.factory = strict.factory ∧ forgiving.device = strict.device ∧
      forgiving.written = strict.written ∧
      (∀ m, strict.answer = .ok m →
        forgiving.answer = m ∧ forgiving.events = strict.events ∧
          made.materials = session.materials ++ [m]) ∧
      ∀ error, strict.answer = .error error →
        forgiving.events = strict.events ++
          [.materialFailed params.path params.defines error.message] ∧
        ∀ run, ∃ m, (made.after run).materials[session.materials.length]? = some m ∧
          m.params = params ∧ m.Inert := by
  intro strict forgiving made
  obtain ⟨factory, device⟩ :=
    session.factory.create_eq_tryCreate session.files session.device params
  -- A success is handed on as it is, and a failure is replaced.
  refine ⟨factory, device, Factory.written_create, fun m answer => ?_, fun error failed => ?_⟩
  · have same := Factory.create_of_ok answer
    exact ⟨congrArg Factory.Reply.answer same, congrArg Factory.Reply.events same,
      materials_of_answer rfl answer⟩
  · have same := Factory.create_of_error failed
    refine ⟨congrArg Factory.Reply.events same, fun run => ?_⟩
    have found : made.materials[session.materials.length]? = some { params } := by
      have appended : made.materials = session.materials ++ [({ params } : Material)] :=
        congrArg (session.materials ++ [·]) (congrArg Factory.Reply.answer same)
      rw [appended, List.getElem?_concat_length]
    -- What is done with an inert material leaves the very same one.
    have kept : ∀ m device action, m.params = params ∧ m.Inert →
        (MaterialAction.apply m device action).1.params = params ∧
          (MaterialAction.apply m device action).1.Inert := by
      intro m device action ⟨described, inert⟩
      rw [inert.apply device action]
      exact ⟨described, inert⟩
    exact after_material kept found ⟨rfl, Material.inert_of_params params⟩ run

/-- What the device turns down stays without a program, and the values it is given are lost. -/
theorem create_agrees_rejected :
    let factory := ((Factory.ofConfig {}).parseSource "gain"
      "uniform int gain; vertex \x7b\x7d fragment \x7b\x7d" .empty).2
    let start : Session := { factory, files := {}, device := { rejection := some "no" } }
    let params : MaterialParams := ⟨"gain", .empty⟩
    let run : List Operation := [.reject none, .act 0 (.setUniform "gain" (.int 1)), .act 0 .bind]
    (start.attempt params).answer = .error (.device "no") ∧
      ∃ m, ((start.step (.create params)).after run).materials[0]? = some m ∧
        m.params = params ∧ m.Inert := by
  intro factory start params run
  -- The device turns the program down, which is the reason for the failure.
  have failed : (start.attempt params).answer = .error (.device "no") := by
    simp only [start, factory, params]
    rfl
  exact ⟨failed, ((start.create_agrees params).2.2.2.2 _ failed).2 run⟩

end Session

end Shading

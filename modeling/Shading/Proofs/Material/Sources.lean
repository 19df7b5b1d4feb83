import Shading.Proofs.Material.Creation
import Shading.Proofs.Material.Session
import Shading.Proofs.Store.Library

/-! Runs of a session: the device gets what the first program under a key is written as. -/

namespace Shading

/-- What is done with a material asks for no program. -/
theorem MaterialAction.requests_apply (m : Material) (device : Device) (action : MaterialAction) :
    (action.apply m device).2.requests = device.requests := by
  -- Values are sent one by one, and none of them is a program.
  have flush : ∀ device : Device, (m.flush device).2.requests = device.requests := by
    intro device
    unfold Material.flush
    induction m.modified generalizing device with
    | nil => rfl
    | cons name names ih =>
      refine (ih (m.send device name)).trans ?_
      unfold Material.send
      cases m.value? name <;> simp
  -- Only sending and binding reach the device.
  cases action with
  | setUniform | setTexture => rfl
  | flush => exact flush device
  | bind =>
    simp only [apply, Material.bind]
    cases m.program with
    | none => rfl
    | some program => exact (flush _).trans (device.requests_activate program)

namespace Session

/-- The session after a run. -/
def after (session : Session) (run : List Operation) : Session :=
  run.foldl step session

/-- The store of a session, and the files that it reads. -/
def library (session : Session) : Library :=
  ⟨session.factory.store, session.files⟩

/-- A request for a material in a session, which is the same whether or not it has to succeed. -/
def attempt (session : Session) (params : MaterialParams) :
    Factory.Reply (Except MaterialError Material) :=
  session.factory.tryCreate session.files session.device params

namespace Operation

/-- The description of the material that an operation makes. -/
def creation? : Operation → Option MaterialParams
  | create params | tryCreate params => some params
  | act _ _ | parseSource _ _ _ | clear | provide _ | reject _ => none

/-- What an operation is to the store. -/
def request? : Operation → Option Library.Operation
  | create params | tryCreate params => some (.call params.call)
  | parseSource name source defines => some (.call (.parseSource name source defines))
  | clear => some .clear
  | provide files => some (.provide files)
  | act _ _ | reject _ => none

end Operation

/--
What there is to put on the device for a material after a run.

It is written from the text at the first successful call for the key since everything was forgotten.
-/
def Converts (start : Session) (run : List Operation) (params : MaterialParams)
    (converted : Converted) : Prop :=
  ∃ before call text handle,
    start.library.Origin (run.filterMap Operation.request?) before call text handle ∧
      call.SameKey params.call ∧ start.factory.writer.write handle.program = .ok converted

variable {session start : Session} {operation : Operation} {run between : List Operation}
  {params : MaterialParams} {key : StoreKey}

/-- A run that continues another one starts where that one ends. -/
theorem after_append (session : Session) (run next : List Operation) :
    session.after (run ++ next) = (session.after run).after next :=
  -- The session is folded along the run.
  List.foldl_append

/-- A run that ends with an operation takes one more step. -/
theorem after_single (session : Session) (run : List Operation) (operation : Operation) :
    session.after (run ++ [operation]) = (session.after run).step operation := by
  -- A single operation is the whole of the second run.
  rw [after_append]
  rfl

/-- What is done with a material leaves the factory and the files as they are. -/
theorem act_frame (session : Session) (index : Nat) (action : MaterialAction) :
    (session.act index action).factory = session.factory ∧
      (session.act index action).files = session.files := by
  -- The material in the place and the device are all that changes.
  unfold Session.act
  cases session.materials[index]? <;> exact ⟨rfl, rfl⟩

/-- Materials are made by one attempt, of which the factory and the device are kept. -/
theorem step_creation (creates : operation.creation? = some params) :
    (session.step operation).factory = (session.attempt params).factory ∧
      (session.step operation).device = (session.attempt params).device := by
  -- A material that is made in any case is made by the same attempt.
  cases operation with
  | create other =>
    cases creates
    exact session.factory.create_eq_tryCreate session.files session.device params
  | tryCreate other =>
    cases creates
    exact ⟨rfl, rfl⟩
  | act | parseSource | clear | provide | reject => cases creates

/-- What an operation is to the factory: a material, a call, the loss of all programs, or nothing. -/
inductive FactoryStep (session : Session) (operation : Operation) : Prop
  | creation (params : MaterialParams)
    (made : (session.step operation).factory = (session.attempt params).factory)
  | call (call : StoreCall) (made : (session.step operation).factory =
      session.factory.withStore (call.ask session.factory.store session.files).store)
  | clear (cleared : operation = .clear) (made : (session.step operation).factory = session.factory.clear)
  | nothing (made : (session.step operation).factory = session.factory)

/-- Each operation is one of these to the factory. -/
theorem factoryStep (session : Session) (operation : Operation) :
    session.FactoryStep operation := by
  -- Only four kinds of operations reach the factory.
  cases operation with
  | create params | tryCreate params => exact .creation params (step_creation rfl).1
  | act index action => exact .nothing (session.act_frame index action).1
  | parseSource name source defines => exact .call (.parseSource name source defines) rfl
  | clear => exact .clear rfl rfl
  | provide | reject => exact .nothing rfl

/-- An operation is to the library what it is to the store. -/
theorem library_step (session : Session) (operation : Operation) :
    (session.step operation).library = session.library.after operation.request?.toList := by
  -- To the store, an attempt is the call for its text.
  have attempted : ∀ params, ⟨(session.attempt params).factory.store, session.files⟩ =
      session.library.after [.call params.call] := by
    intro params
    rw [attempt, Factory.store_tryCreate]
    rfl
  -- All other operations are the calls that the library knows, or none.
  cases operation with
  | create params =>
    have made := session.factory.create_eq_tryCreate session.files session.device params
    refine Eq.trans ?_ (attempted params)
    rw [library, attempt, ← made.1]
    rfl
  | tryCreate params => exact attempted params
  | act index action =>
    obtain ⟨factory, files⟩ := session.act_frame index action
    simp only [library, step, factory, files]
    rfl
  | parseSource | clear | provide | reject => rfl

/-- A run is to the library what its operations are to the store. -/
theorem library_after (session : Session) (run : List Operation) :
    (session.after run).library = session.library.after (run.filterMap Operation.request?) := by
  -- Operations that are nothing to the store leave the library as it is.
  induction run generalizing session with
  | nil => rfl
  | cons operation run ih =>
    refine (ih (session.step operation)).trans ?_
    rw [library_step]
    cases request : operation.request? with
    | none => rw [List.filterMap_cons_none request]; rfl
    | some call => rw [List.filterMap_cons_some request]; rfl

/-- The writer of a session stays the same. -/
theorem writer_step (session : Session) (operation : Operation) :
    (session.step operation).factory.writer = session.factory.writer := by
  -- No step of the factory takes another writer.
  cases session.factoryStep operation with
  | creation params made => exact (congrArg Factory.writer made).trans Factory.writer_tryCreate
  | call _ made | clear _ made =>
    rw [made]
    rfl
  | nothing made => rw [made]

/-- The writer of a session stays the same in a run. -/
theorem writer_after (session : Session) (run : List Operation) :
    (session.after run).factory.writer = session.factory.writer := by
  -- Operation by operation.
  induction run generalizing session with
  | nil => rfl
  | cons operation run ih => exact (ih (session.step operation)).trans (session.writer_step operation)

/-- An operation keeps what is known to be written true of the programs that are kept. -/
theorem coherent_step (coherent : session.factory.Coherent) (operation : Operation) :
    (session.step operation).factory.Coherent := by
  -- Of all that an operation does, only these three reach the factory.
  cases session.factoryStep operation with
  | creation params made =>
    rw [made]
    exact coherent.tryCreate
  | call call made =>
    rw [made]
    exact coherent.withStore session.files call
  | clear _ made =>
    rw [made]
    exact coherent.clear
  -- All others leave the factory alone.
  | nothing made => rwa [made]

/-- A run keeps what is known to be written true of the programs that are kept. -/
theorem coherent_after (coherent : session.factory.Coherent) (run : List Operation) :
    (session.after run).factory.Coherent := by
  -- Operation by operation, as each of them keeps it.
  induction run generalizing session with
  | nil => exact coherent
  | cons operation run ih => exact ih (coherent_step coherent operation)

/-- What was written stays written as long as nothing is forgotten. -/
theorem hasWritten_step (known : session.factory.HasWritten key) (differs : operation ≠ .clear) :
    (session.step operation).factory.HasWritten key := by
  -- Only forgetting everything takes a program from the store.
  cases session.factoryStep operation with
  | creation params made =>
    rw [made]
    exact known.tryCreate
  | call call made =>
    rw [made]
    exact known.withStore session.files call
  | clear cleared => exact absurd cleared differs
  | nothing made => rwa [made]

/-- What was written stays written in a run in which nothing is forgotten. -/
theorem hasWritten_after (known : session.factory.HasWritten key) (uncleared : .clear ∉ run) :
    (session.after run).factory.HasWritten key := by
  -- Only forgetting the programs takes away what was written of them.
  induction run generalizing session with
  | nil => exact known
  | cons operation run ih =>
    obtain ⟨differs, uncleared⟩ := List.ne_and_not_mem_of_not_mem_cons uncleared
    exact ih (hasWritten_step known differs.symm) uncleared

/-- What there is to put on the device is what the program that is kept is written as. -/
theorem converts_iff_offers (empty : start.factory.store.entries = []) {converted : Converted} :
    start.Converts run params converted ↔
      (start.after run).factory.Offers params.call.key converted := by
  have kept : (start.after run).factory.store =
      (start.library.after (run.filterMap Operation.request?)).store :=
    congrArg Library.store (start.library_after run)
  unfold Converts Factory.Offers
  rw [kept, writer_after]
  -- What is kept under a key comes from the first call for it, and the other way round.
  constructor
  · rintro ⟨before, call, text, handle, origin, same, succeeded⟩
    refine ⟨handle, ?_, succeeded⟩
    rw [← StoreCall.sameKey_iff.mp same]
    exact origin.served.find?
  · -- A program that is kept was put there by a call, whose key is the same.
    rintro ⟨handle, found, succeeded⟩
    obtain ⟨before, call, text, origin, same⟩ := Library.exists_origin empty found
    exact ⟨before, call, text, handle, origin, StoreCall.sameKey_iff.mpr same, succeeded⟩

/-- Only the making of a material asks the device for a program. -/
theorem requests_step (creates : operation.creation? = none) :
    (session.step operation).device.requests = session.device.requests := by
  -- Materials that are there have their programs already, and ask for no others.
  cases operation with
  | create | tryCreate => cases creates
  | act index action =>
    simp only [step, Session.act]
    cases session.materials[index]? with
    | none => rfl
    | some m => exact MaterialAction.requests_apply m session.device action
  | parseSource | clear | provide | reject => rfl

/--
The device gets what the first program under a key is written as.

Where a material is made, there is something written for it or not.
If there is, only the device can turn it down, which is asked for it exactly once.
The writer is then not asked for the key again until everything is forgotten.
If there is not, the request fails and the device is not asked.
Neither is it by anything else that happens.
-/
theorem requests_of_converts (config : Config) (files : FileSystem) (device : Device)
    (run : List Operation) (operation : Operation) :
    let start : Session := { factory := .ofConfig config, files, device }
    let reached := start.after run
    let next := reached.step operation
    (operation.creation? = none → next.device.requests = reached.device.requests) ∧
    ∀ params, operation.creation? = some params →
      (∀ converted, start.Converts (run ++ [operation]) params converted →
        (∀ error, (reached.attempt params).answer ≠ .error (.shader error)) ∧
          next.device.requests =
            reached.device.requests ++ [(converted.vertex, converted.fragment)] ∧
          ∀ between params', params.call.SameKey params'.call → .clear ∉ between →
            ((start.after (run ++ operation :: between)).attempt params').written = false) ∧
      ((∀ converted, ¬start.Converts (run ++ [operation]) params converted) →
        (∃ error, (reached.attempt params).answer = .error (.shader error)) ∧
          next.device.requests = reached.device.requests) := by
  intro start reached next
  have coherent : reached.factory.Coherent :=
    coherent_after (Factory.coherent_withWriter config (Glsl.writer config.version)) run
  refine ⟨fun creates => requests_step creates, fun params creates => ?_⟩
  obtain ⟨made, asked⟩ : next.factory = (reached.attempt params).factory ∧
      next.device = (reached.attempt params).device := step_creation creates
  -- What the run leaves to put on the device is what the attempt finds.
  have offers : ∀ converted, start.Converts (run ++ [operation]) params converted ↔
      (reached.attempt params).factory.Offers params.call.key converted := by
    intro converted
    rw [← made, converts_iff_offers rfl, after_single]
  constructor
  · intro converted converts
    obtain ⟨answer, requests, written⟩ := coherent.requests_of_offers ((offers converted).mp converts)
    refine ⟨answer, by rw [asked]; exact requests, fun between params' same uncleared => ?_⟩
    have stays : next.factory.HasWritten params'.call.key := by
      rw [made, ← StoreCall.sameKey_iff.mp same]
      exact written
    rw [after_append]
    exact (hasWritten_after stays uncleared).unwritten
  · -- Without an offer the attempt fails before the device is asked.
    intro none
    rw [asked]
    exact coherent.requests_of_not_offers fun converted found => none converted ((offers converted).mpr found)

/-- A program that is turned down is asked for again, and not written again. -/
theorem requests_of_converts_rejected :
    let start : Session := { factory := .ofConfig {}, files := {}, device := {} }
    let params : MaterialParams := ⟨"gain", .empty⟩
    let run : List Operation := [.parseSource "gain" "vertex \x7b\x7d fragment \x7b\x7d" .empty,
      .reject (some "no")]
    ∃ converted, start.Converts (run ++ [.create params]) params converted ∧
      ((start.after run).step (.create params)).device.requests =
        [(converted.vertex, converted.fragment)] ∧
      ((start.after (run ++ [.create params, .reject none])).attempt params).written = false := by
  intro start params run
  let program : Program := { Program.empty "gain" .empty with vertex := some [], fragment := some [] }
  -- The text is the first one under its key, and nothing came before it.
  have origin : start.library.Origin ((run ++ [Operation.create params]).filterMap Operation.request?) []
      (.parseSource "gain" "vertex \x7b\x7d fragment \x7b\x7d" .empty)
      "vertex \x7b\x7d fragment \x7b\x7d" ⟨0, program⟩ := by
    refine ⟨⟨[.call params.call], rfl, by simp⟩, ?_, ⟨rfl, rfl⟩, rfl⟩
    rintro other handle' ⟨before, later, splits, -⟩
    simp at splits
  -- An empty program can be written.
  obtain ⟨converted, succeeded⟩ : ∃ converted, start.factory.writer.write program = .ok converted :=
    ⟨_, rfl⟩
  have converts : start.Converts (run ++ [.create params]) params converted :=
    ⟨_, _, _, _, origin, ⟨rfl, fun _ => rfl⟩, succeeded⟩
  have made := ((requests_of_converts {} {} {} run (.create params)).2 params rfl).1 _ converts
  exact ⟨converted, converts, made.2.1, made.2.2 [.reject none] params ⟨rfl, fun _ => rfl⟩ (by simp)⟩

end Session

end Shading

import Shading.Material.Factory
import Shading.Proofs.Conversions.Requests
import Shading.Proofs.Store.Calls

/-! One request for a material: what is read, written and asked of the device for it. -/

namespace Shading

namespace Device

/-- The texts of the programs that a device was asked for, in their order. -/
def requests (device : Device) : List (String × String) :=
  device.calls.filterMap fun
    | .create vertex fragment => some (vertex, fragment)
    | .activate _ | .set _ _ => none

/-- The device is asked once for a program, whether or not it turns it down. -/
@[simp] theorem requests_create (device : Device) (converted : Converted) :
    (device.create converted).2.requests =
      device.requests ++ [(converted.vertex, converted.fragment)] := by
  -- The call is recorded in front of the answer.
  unfold create
  cases device.rejection <;> simp [requests, record]

/-- Making a program active asks for none. -/
@[simp] theorem requests_activate (device : Device) (program : DeviceProgram) :
    (device.activate program).requests = device.requests := by
  -- Activating is recorded, but it is no request.
  simp [requests, activate, record]

/-- Writing a value asks for no program. -/
@[simp] theorem requests_set (device : Device) (name : String) (value : UniformValue) :
    (device.set name value).requests = device.requests := by
  -- Writing is recorded, but it is no request.
  simp [requests, set, record]

end Device

/-- The call for the program of a material. -/
def MaterialParams.call (params : MaterialParams) : StoreCall :=
  .get params.path params.defines

namespace Factory

variable {factory : Factory} {files : FileSystem} {device : Device} {params : MaterialParams}

/-- A factory after its store has answered. -/
def withStore (factory : Factory) (store : Store) : Factory :=
  { factory with store }

/-- What becomes of a request for a material, by what there was for it and what had to be made. -/
inductive Attempts (factory : Factory) (files : FileSystem) (device : Device) (params : MaterialParams)
    (reply : Reply (Except MaterialError Material)) : Prop
  | unread (missing : (params.call.ask factory.store files).store.find? params.call.key = none)
    (same : reply.factory = factory.withStore (params.call.ask factory.store files).store)
    (unasked : reply.device = device) (unwritten : reply.written = false)
    (answer : ∃ error, reply.answer = .error (.shader error))
  | known {handle artifact}
    (read : (params.call.ask factory.store files).store.find? params.call.key = some handle)
    (found : factory.conversions.artifact? handle = some artifact)
    (same : reply.factory = factory.withStore (params.call.ask factory.store files).store)
    (asked : reply.device = (device.create artifact.converted).2) (unwritten : reply.written = false)
    (answer : ∀ error, reply.answer ≠ .error (.shader error))
  -- A failure of the writer is not kept, so the factory only gains what was read.
  | refused {handle error}
    (read : (params.call.ask factory.store files).store.find? params.call.key = some handle)
    (missing : factory.conversions.artifact? handle = none)
    (failed : factory.writer.write handle.program = .error error)
    (same : reply.factory = factory.withStore (params.call.ask factory.store files).store)
    (unasked : reply.device = device) (written : reply.written = true)
    (answer : reply.answer = .error (.shader (.write error)))
  -- The artifact stays even if the device does not take it.
  | fresh {handle converted}
    (read : (params.call.ask factory.store files).store.find? params.call.key = some handle)
    (missing : factory.conversions.artifact? handle = none)
    (succeeded : factory.writer.write handle.program = .ok converted)
    (filled : reply.factory =
      { factory.withStore (params.call.ask factory.store files).store with
        conversions := (factory.conversions.fill handle converted).2 })
    (asked : reply.device = (device.create converted).2) (written : reply.written = true)
    (answer : ∀ error, reply.answer ≠ .error (.shader error))

/-- What was written can only be turned down by the device. -/
theorem place_answer (params : MaterialParams) (device : Device) (converted : Converted)
    (error : ShaderError) : (place params device converted).1 ≠ .error (.shader error) := by
  -- The only error of this step is the reason of the device.
  dsimp only [place]
  split <;> exact nofun

/-- Each request for a material is one of these. -/
theorem attempts_tryCreate (factory : Factory) (files : FileSystem) (device : Device)
    (params : MaterialParams) :
    Attempts factory files device params (factory.tryCreate files device params) := by
  have reply : factory.store.get files params.path params.defines =
      params.call.ask factory.store files := rfl
  unfold tryCreate
  rw [reply]
  -- The program is read first, then written unless it was, and only then put on the device.
  cases answer : (params.call.ask factory.store files).answer with
  | error error =>
    simp only [answer]
    obtain ⟨same, missing⟩ := Store.ask_of_error answer
    exact .unread (by rwa [same]) rfl rfl rfl ⟨error, rfl⟩
  | ok handle =>
    have read := Store.find?_ask_of_answer answer
    -- An artifact that is there is used again.
    cases found : factory.conversions.artifact? handle with
    | some artifact =>
      simp only [answer, Conversions.convert, found]
      exact .known read found rfl rfl rfl (place_answer params device artifact.converted)
    | none =>
      -- Without one the writer is asked, and whether it succeeds decides whether the device is.
      cases written : factory.writer.write handle.program with
      | error error =>
        simp only [answer, Conversions.convert, found, written]
        exact .refused read found written rfl rfl rfl rfl
      | ok converted =>
        simp only [answer, Conversions.convert, found, written]
        exact .fresh read found written rfl rfl rfl (place_answer params device converted)

/-- A material in any case is made like one that may be refused. -/
theorem create_eq_tryCreate (factory : Factory) (files : FileSystem) (device : Device)
    (params : MaterialParams) :
    (factory.create files device params).factory = (factory.tryCreate files device params).factory ∧
      (factory.create files device params).device = (factory.tryCreate files device params).device := by
  -- The forgiving creation takes what the strict one leaves, whatever it answers.
  dsimp only [create]
  cases (factory.tryCreate files device params).answer <;> exact ⟨rfl, rfl⟩

/-- The store of a factory answers the call for the program of a material. -/
theorem store_tryCreate :
    (factory.tryCreate files device params).factory.store =
      (params.call.ask factory.store files).store := by
  -- Whether the program is written later does not touch the store.
  cases factory.attempts_tryCreate files device params with
  | unread _ same | known _ _ same | refused _ _ _ same => rw [same, withStore]
  | fresh _ _ _ filled => rw [filled, withStore]

/-- Materials are all made with the same writer. -/
theorem writer_tryCreate :
    (factory.tryCreate files device params).factory.writer = factory.writer := by
  -- Conversions and store change, and the writer never does.
  cases factory.attempts_tryCreate files device params with
  | unread _ same | known _ _ same | refused _ _ _ same => rw [same, withStore]
  | fresh _ _ _ filled => rw [filled, withStore]

/-- What the program that is kept under a key is written as. -/
def Offers (factory : Factory) (key : StoreKey) (converted : Converted) : Prop :=
  ∃ handle, factory.store.find? key = some handle ∧
    factory.writer.write handle.program = .ok converted

/-- The program that is kept under a key was written. -/
def HasWritten (factory : Factory) (key : StoreKey) : Prop :=
  ∃ handle artifact, factory.store.find? key = some handle ∧
    factory.conversions.artifact? handle = some artifact

/-- What is known to be written of the programs that are kept is what the writer makes of them. -/
structure Coherent (factory : Factory) : Prop where
  sound : factory.store.Sound
  unknown : ∀ {number}, factory.store.made ≤ number →
    factory.conversions.slots.lookup number = none
  faithful : ∀ {key handle artifact}, factory.store.find? key = some handle →
    factory.conversions.artifact? handle = some artifact →
    factory.writer.write handle.program = .ok artifact.converted

variable {key : StoreKey} {handle handle' : ProgramHandle}

/-- A factory that has read nothing is coherent. -/
theorem coherent_withWriter (config : Config) (writer : Writer) :
    (withWriter config writer).Coherent where
  sound := Store.sound_of_entries_eq_nil rfl
  -- There are neither programs nor artifacts.
  unknown := by simp [withWriter]
  faithful := by simp [withWriter, Store.find?]

/-- Forgetting every program leaves nothing that could be wrong. -/
theorem Coherent.clear (coherent : factory.Coherent) : factory.clear.Coherent where
  sound := Store.sound_of_entries_eq_nil rfl
  -- Artifacts stay, but no key leads to a program any more.
  unknown := coherent.unknown
  faithful := by simp [Factory.clear]

/-- Calls keep a factory coherent, since nothing is known of a program that was just made. -/
theorem Coherent.withStore (coherent : factory.Coherent) (files : FileSystem) (call : StoreCall) :
    (factory.withStore (call.ask factory.store files).store).Coherent where
  sound := coherent.sound.ask files call
  unknown := fun beyond => coherent.unknown (Nat.le_trans (factory.store.made_le_ask files call) beyond)
  faithful := by
    intro key handle artifact found known
    rcases Store.find?_ask_cases found with kept | ⟨-, -, newest, -⟩
    · exact coherent.faithful kept known
    · -- A number that was just given out has no artifact.
      have none := coherent.unknown (Nat.le_of_eq newest.symm)
      rw [Conversions.artifact?] at known
      change factory.conversions.slots.lookup _ = _ at known
      rw [none] at known
      cases known

/-- A program that is written keeps a factory coherent. -/
theorem Coherent.fill (coherent : factory.Coherent) {converted : Converted}
    (found : factory.store.find? key = some handle)
    (succeeded : factory.writer.write handle.program = .ok converted) :
    Coherent { factory with conversions := (factory.conversions.fill handle converted).2 } where
  sound := coherent.sound
  -- Numbers are given out in order, so that the new one is not beyond them.
  unknown := by
    intro number beyond
    have below : handle.number < number := Nat.lt_of_lt_of_le (coherent.sound.below found) beyond
    have differs : (number == handle.number) = false := by simpa using (Nat.ne_of_lt below).symm
    simpa [Conversions.fill, List.lookup_cons, differs] using coherent.unknown beyond
  faithful := by
    intro key' handle' artifact found' known
    rw [Conversions.artifact?_fill] at known
    split at known
    · rename_i sameNumber
      -- Only one key leads to a number, so the other handle is the same.
      obtain rfl := coherent.sound.distinct found' found sameNumber
      obtain rfl := Option.some.inj (found'.symm.trans found)
      cases known
      exact succeeded
    · exact coherent.faithful found' known

/-- Requests for materials keep a factory coherent. -/
theorem Coherent.tryCreate (coherent : factory.Coherent) :
    (factory.tryCreate files device params).factory.Coherent := by
  -- The store answers first; only then may the program be written.
  have read := coherent.withStore files params.call
  cases factory.attempts_tryCreate files device params with
  | unread _ same | known _ _ same | refused _ _ _ same => rwa [same]
  | fresh found _ succeeded filled =>
    rw [filled]
    exact read.fill found succeeded

/-- What was written stays written whatever the store is asked for. -/
theorem HasWritten.withStore (known : factory.HasWritten key) (files : FileSystem) (call : StoreCall) :
    (factory.withStore (call.ask factory.store files).store).HasWritten key := by
  -- The store keeps what it has under a key.
  obtain ⟨handle, artifact, found, written⟩ := known
  exact ⟨handle, artifact, Store.find?_ask_of_find? found call, written⟩

/-- What was written stays written whatever material is made. -/
theorem HasWritten.tryCreate (known : factory.HasWritten key) :
    (factory.tryCreate files device params).factory.HasWritten key := by
  -- Only a newly written program changes the slots.
  cases factory.attempts_tryCreate files device params with
  | unread _ same | known _ _ same | refused _ _ _ same =>
    rw [same]
    exact known.withStore files params.call
  | fresh _ missing _ filled =>
    obtain ⟨handle, artifact, found, written⟩ := known.withStore files params.call
    rw [filled]
    refine ⟨handle, artifact, found, ?_⟩
    rw [Conversions.artifact?_fill, if_neg]
    · exact written
    · -- The other program had no artifact yet.
      intro same
      change factory.conversions.artifact? handle = some artifact at written
      rw [Conversions.artifact?, same, ← Conversions.artifact?.eq_def, missing] at written
      cases written

/-- The writer is not asked for a program that was written. -/
theorem HasWritten.unwritten (known : factory.HasWritten params.call.key) :
    (factory.tryCreate files device params).written = false := by
  obtain ⟨handle, artifact, found, written⟩ := known
  have kept : (params.call.ask factory.store files).store.find? params.call.key = some handle :=
    Store.find?_ask_of_find? found params.call
  cases factory.attempts_tryCreate files device params with
  | unread _ _ _ unwritten | known _ _ _ _ unwritten => exact unwritten
  | refused read missing | fresh read missing =>
    -- The program that is kept is the one whose artifact is known.
    rw [kept] at read
    cases read
    rw [missing] at written
    cases written

/-- A request for something that can be written is one to the device, and leaves it written. -/
theorem Coherent.requests_of_offers (coherent : factory.Coherent) {converted : Converted}
    (offers : (factory.tryCreate files device params).factory.Offers params.call.key converted) :
    (∀ error, (factory.tryCreate files device params).answer ≠ .error (.shader error)) ∧
      (factory.tryCreate files device params).device.requests =
        device.requests ++ [(converted.vertex, converted.fragment)] ∧
      (factory.tryCreate files device params).factory.HasWritten params.call.key := by
  obtain ⟨handle, found, succeeded⟩ := offers
  rw [store_tryCreate] at found
  rw [writer_tryCreate] at succeeded
  unfold HasWritten
  rw [store_tryCreate]
  -- In each case the program is the one that is kept, for which the writer has one answer.
  cases factory.attempts_tryCreate files device params with
  | unread missing =>
    rw [found] at missing
    cases missing
  | @known _ artifact read known same asked _ answer =>
    rw [found] at read
    cases read
    -- The artifact is what the writer would make of the program now.
    have converts : factory.writer.write handle.program = .ok artifact.converted :=
      (coherent.withStore files params.call).faithful found known
    rw [succeeded] at converts
    cases converts
    rw [asked, Device.requests_create, same]
    exact ⟨answer, rfl, handle, artifact, found, known⟩
  -- The writer cannot have refused what it is known to write.
  | refused read _ failed =>
    rw [found] at read
    cases read
    rw [succeeded] at failed
    cases failed
  | fresh read _ succeeded' filled asked _ answer =>
    rw [found] at read
    cases read
    rw [succeeded] at succeeded'
    cases succeeded'
    rw [asked, Device.requests_create, filled]
    exact ⟨answer, rfl, handle, _, found, by rw [Conversions.artifact?_fill, if_pos rfl]⟩

/-- A request for something that cannot be read or written fails, and is none to the device. -/
theorem Coherent.requests_of_not_offers (coherent : factory.Coherent)
    (offersNot : ∀ converted,
      ¬(factory.tryCreate files device params).factory.Offers params.call.key converted) :
    (∃ error, (factory.tryCreate files device params).answer = .error (.shader error)) ∧
      (factory.tryCreate files device params).device.requests = device.requests := by
  unfold Offers at offersNot
  rw [store_tryCreate, writer_tryCreate] at offersNot
  -- The device is only asked for what the writer made of the program.
  cases factory.attempts_tryCreate files device params with
  | unread _ _ unasked _ answer => exact ⟨answer, by rw [unasked]⟩
  | refused _ _ _ _ unasked _ answer => exact ⟨⟨_, answer⟩, by rw [unasked]⟩
  | known read known =>
    have succeeded := (coherent.withStore files params.call).faithful read known
    exact absurd ⟨_, read, succeeded⟩ (offersNot _)
  | fresh read _ succeeded => exact absurd ⟨_, read, succeeded⟩ (offersNot _)

end Factory

end Shading

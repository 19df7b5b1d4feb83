import Shading.Material.Factory
import Shading.Proofs.Log.Logged

/-! Programs are read, written and put to use under a level of logging as they are without one. -/

namespace Shading

/-- The factory with reports of what it writes, or without them. -/
def Factory.annotating (factory : Factory) (annotated : Bool) : Factory :=
  { factory with annotated }

namespace Logged

/-- The artifact of a program, with the reports at the places where they are made. -/
def convert (conversions : Conversions) (writer : Writer) (annotated : Bool)
    (handle : ProgramHandle) : Logged (Except WriteError Artifact × Conversions) := do
  let program := handle.program
  match conversions.artifact? handle with
  | some artifact =>
    report (.conversionHit program.name program.defines)
    return (.ok artifact, conversions)
  | none =>
    report (.conversionMiss program.name program.defines writer.backend)
    match ← write writer program with
    -- A failure is not kept: the next request has the program written again.
    | .error error => return (.error error, conversions)
    | .ok converted =>
      let (artifact, filled) := conversions.fill handle converted
      if annotated then
        annotate .vertex converted.vertex
        annotate .fragment converted.fragment
      return (.ok artifact, filled)

/-- The program under a key, with the reports at the places where they are made. -/
def findOrMake (store : Store) (name : String) (defines : Defines)
    (make : Logged (Except ShaderError Program)) :
    Logged (Except ShaderError ProgramHandle × Store) := do
  let key := StoreKey.ofPath name defines
  match store.find? key with
  | some handle =>
    report (.programHit name defines)
    return (.ok handle, store)
  | none =>
    report (.programMiss name defines)
    match ← make with
    | .error error => return (.error error, store)
    | .ok program =>
      let (handle, kept) := store.keep key program
      return (.ok handle, kept)

/-- Loads a file, which is reported before and after. -/
def load {α : Type} (place : String) (loaded : Except ShaderError α) :
    Logged (Except ShaderError α) := do
  report (.loading place)
  match loaded with
  | .ok value =>
    report (.loaded place)
    return .ok value
  | .error error =>
    report (.loadFailed place)
    return .error error

/-- The program in a file of the directory of resources. -/
def get (store : Store) (files : FileSystem) (path : String) (defines : Defines) :
    Logged (Except ShaderError ProgramHandle × Store) :=
  findOrMake store path defines
    (load (store.config.resourcePath path) (Store.readProgram store.config files path defines))

/-- The program that a text is, which is reported only as far as it is kept already. -/
def parseSource (store : Store) (name source : String) (defines : Defines) :
    Logged (Except ShaderError ProgramHandle × Store) :=
  findOrMake store name defines
    (pure ((Program.parse name defines source).mapError (.parse name)))

/-- A material with a program, or the reason why there is none. -/
def tryCreate (factory : Factory) (files : FileSystem) (device : Device)
    (params : MaterialParams) : Logged (Except MaterialError Material × Factory × Device) := do
  let (found, store) ← get factory.store files params.path params.defines
  let read := { factory with store }
  match found with
  | .error error => return (.error (.shader error), read, device)
  | .ok handle =>
    let (written, conversions) ← convert read.conversions read.writer read.annotated handle
    let converted := { read with conversions }
    match written with
    | .error error => return (.error (.shader (.write error)), converted, device)
    | .ok artifact =>
      let (material, asked) := Factory.place params device artifact.converted
      return (material, converted, asked)

/-- A material in any case; where none could be built, this is reported. -/
def create (factory : Factory) (files : FileSystem) (device : Device) (params : MaterialParams) :
    Logged (Material × Factory × Device) := do
  let (tried, made, asked) ← tryCreate factory files device params
  match tried with
  | .ok material => return (material, made, asked)
  | .error error =>
    report (.materialFailed params.path params.defines error.message)
    return ({ params }, made, asked)

/-- A factory that has read nothing yet, which is reported. -/
def withWriter (config : Config) (writer : Writer) : Logged Factory := do
  report (.factory writer.backend)
  return .withWriter config writer

section Undisturbed

variable (conversions : Conversions) (writer : Writer) (annotated : Bool) (handle : ProgramHandle)
  (store : Store) (name : String) (defines : Defines)

/-- No filter disturbs a request for an artifact. -/
theorem convert_undisturbed : Undisturbed (convert conversions writer annotated handle) := by
  unfold convert
  split
  · -- What is in its slot already is only reported.
    exact (report_undisturbed _).bind fun _ => .pure _
  · -- The slot is filled before anything is said about what was written.
    refine (report_undisturbed _).bind fun _ => (write_undisturbed _ _).bind fun written => ?_
    cases written with
    | error => exact .pure _
    | ok converted =>
      cases annotated with
      | false => exact .pure _
      | true =>
        refine (annotate_undisturbed _ _).bind fun _ => ?_
        exact (annotate_undisturbed _ _).bind fun _ => .pure _

/-- Programs are found, or made without being disturbed, under every filter. -/
theorem findOrMake_undisturbed {make : Logged (Except ShaderError Program)}
    (undisturbed : Undisturbed make) : Undisturbed (findOrMake store name defines make) := by
  -- A program that is kept is only reported, and any other one is made.
  dsimp only [findOrMake]
  split
  · exact (report_undisturbed _).bind fun _ => .pure _
  · refine (report_undisturbed _).bind fun _ => undisturbed.bind fun made => ?_
    cases made <;> exact .pure _

/-- What was loaded is returned untouched. -/
theorem load_undisturbed {α : Type} (place : String) (loaded : Except ShaderError α) :
    Undisturbed (load place loaded) := by
  -- Loading is reported at its start and at its end.
  refine (report_undisturbed _).bind fun _ => ?_
  cases loaded <;> exact (report_undisturbed _).bind fun _ => .pure _

variable (factory : Factory) (files : FileSystem) (device : Device) (params : MaterialParams)
  (path source : String)

/-- No filter disturbs a call for the program in a file. -/
theorem get_undisturbed : Undisturbed (get store files path defines) :=
  -- A file is loaded without being disturbed.
  findOrMake_undisturbed _ _ _ (load_undisturbed _ _)

/-- No filter disturbs a call for the program that a text is. -/
theorem parseSource_undisturbed : Undisturbed (parseSource store name source defines) :=
  -- Parsing has no effects.
  findOrMake_undisturbed _ _ _ (.pure _)

/-- No filter disturbs a request for a material with a program. -/
theorem tryCreate_undisturbed : Undisturbed (tryCreate factory files device params) := by
  -- The two steps of a request are undisturbed, and only they have effects.
  refine (get_undisturbed _ _ _ _).bind fun (found, _) => ?_
  cases found with
  | error => exact .pure _
  | ok handle =>
    refine (convert_undisturbed _ _ _ _).bind fun (written, _) => ?_
    cases written <;> exact .pure _

/-- A failure that is not printed gives a material without a program all the same. -/
theorem create_undisturbed : Undisturbed (create factory files device params) := by
  -- The only effect besides those of the request is a report.
  refine (tryCreate_undisturbed factory files device params).bind fun (tried, _) => ?_
  cases tried with
  | ok => exact .pure _
  | error => exact (report_undisturbed _).bind fun _ => .pure _

end Undisturbed

/-- An action gives the value of a reply, makes its reports, and asks a writer where it did. -/
structure Matches {α : Type} (action : Logged α) (value : α) (events : List LogEvent)
    (written : Bool) : Prop where
  value : action.value = value
  events : Effect.records action.effects = events
  written : (Effect.writerCalls action.effects).isEmpty = !written

/-- What is done with the value of an action makes no more reports. -/
theorem Matches.bind_pure {α β : Type} {action : Logged α} {next : α → Logged β} {value : α}
    {result : β} {events : List LogEvent} {written : Bool}
    (matched : Matches action value events written) (silent : next value = pure result) :
    Matches (action >>= next) result events written := by
  -- An action without effects adds none.
  obtain ⟨rfl, rfl, asked⟩ := matched
  constructor <;> simp [silent, asked]

/-- Where a reply was given without a writer, none is asked. -/
theorem Matches.uncalled {α : Type} {action : Logged α} {value : α} {events : List LogEvent}
    (matched : Matches action value events false) : Effect.writerCalls action.effects = [] :=
  -- The writer was not asked, as the reply says.
  List.isEmpty_iff.mp matched.written

section Matching

variable (conversions : Conversions) (writer : Writer) (annotated : Bool) (handle : ProgramHandle)
  (store : Store) (files : FileSystem) (name path source : String) (defines : Defines)

/-- Requests for artifacts are answered as without a level of logging. -/
theorem convert_matches :
    let reply := conversions.convert writer annotated handle
    Matches (convert conversions writer annotated handle) (reply.answer, reply.conversions)
      reply.events reply.written := by
  -- A slot that is filled is answered from, and an empty one asks the writer.
  cases found : conversions.artifact? handle with
  | some artifact => constructor <;> simp [convert, Conversions.convert, found]
  | none =>
    cases written : writer.write handle.program with
    | error error => constructor <;> simp [convert, Conversions.convert, found, written]
    | ok converted =>
      cases annotated <;> constructor <;>
        simp [convert, Conversions.convert, Conversions.report, found, written]

/-- Programs are found or made as without a level of logging. -/
theorem findOrMake_matches {make : Logged (Except ShaderError Program)}
    {made : Except ShaderError Program} {report : Except ShaderError Program → List LogEvent}
    (matched : Matches make made (report made) false) :
    let reply := store.findOrMake name defines made report
    Matches (findOrMake store name defines make) (reply.answer, reply.store) reply.events
      false := by
  -- Both sides look up the key first, and make a program only if there is none.
  have uncalled := matched.uncalled
  obtain ⟨value, events, -⟩ := matched
  cases found : store.find? (StoreKey.ofPath name defines) with
  | some handle => constructor <;> simp [findOrMake, Store.findOrMake, found]
  | none =>
    cases made <;> constructor <;>
      simp [findOrMake, Store.findOrMake, found, value, events, uncalled]

/-- Calls for the programs in files are answered as without a level of logging. -/
theorem get_matches :
    let reply := store.get files path defines
    Matches (get store files path defines) (reply.answer, reply.store) reply.events false := by
  -- What is made is the program in the file, with the reports of loading it.
  refine findOrMake_matches _ _ _ ?_
  cases Store.readProgram store.config files path defines <;> constructor <;>
    simp [load, Store.loadEvents]

/-- Calls for the programs of texts are answered as without a level of logging. -/
theorem parseSource_matches :
    let reply := store.parseSource name source defines
    Matches (parseSource store name source defines) (reply.answer, reply.store) reply.events
      false :=
  -- Parsing makes no reports of its own.
  findOrMake_matches _ _ _ ⟨rfl, rfl, rfl⟩

variable (factory : Factory) (device : Device) (params : MaterialParams)

/-- Materials are made or refused as without a level of logging. -/
theorem tryCreate_matches :
    let reply := factory.tryCreate files device params
    Matches (tryCreate factory files device params) (reply.answer, reply.factory, reply.device)
      reply.events reply.written := by
  have matched := get_matches factory.store files params.path params.defines
  -- A request to the store never asks the writer.
  have uncalled := matched.uncalled
  obtain ⟨value, events, -⟩ := matched
  cases found : (factory.store.get files params.path params.defines).answer with
  | error error =>
    constructor <;> simp [tryCreate, Factory.tryCreate, value, events, uncalled, found]
  -- With a program, the request goes on to its conversion.
  | ok handle =>
    obtain ⟨value', events', written'⟩ :=
      convert_matches factory.conversions factory.writer factory.annotated handle
    cases converted :
        (factory.conversions.convert factory.writer factory.annotated handle).answer <;>
      constructor <;>
      simp [tryCreate, Factory.tryCreate, value, events, uncalled, found, value', events', written',
        converted]

/-- Materials are made in any case as without a level of logging. -/
theorem create_matches :
    let reply := factory.create files device params
    Matches (create factory files device params) (reply.answer, reply.factory, reply.device)
      reply.events reply.written := by
  -- A refusal is the only case with a report more.
  obtain ⟨value, events, written⟩ := tryCreate_matches files factory device params
  cases tried : (factory.tryCreate files device params).answer <;> constructor <;>
    simp [create, Factory.create, value, events, tried, written]

/-- Factories are new, and reported, as without a level of logging. -/
theorem withWriter_matches (config : Config) :
    Matches (withWriter config writer) (.withWriter config writer)
      (Factory.withWriter config writer).opening false := by
  -- The opening is a single report.
  constructor <;> simp [withWriter, Factory.opening, Factory.withWriter]

end Matching

/-- An action gives the value of another one up to a change, and is seen as that one is; what was
written is noted where this is wanted. -/
structure Differs {α : Type} (plain action : Logged α) (noted : Bool) (change : α → α) : Prop where
  value : action.value = change plain.value
  effects : action.effects =
    if noted then plain.effects.flatMap Effect.noted else plain.effects

/-- What is done with the value of an action is not seen, and keeps the change. -/
theorem Differs.bind_pure {α β : Type} {plain action : Logged α} {next next' : α → Logged β}
    {noted : Bool} {change : α → α} {change' : β → β} (differs : Differs plain action noted change)
    (silent : ∀ value, ∃ result, next value = pure result ∧
      next' (change value) = pure (change' result)) :
    Differs (plain >>= next) (action >>= next') noted change' := by
  -- The change is carried to the result, and no effect is added.
  obtain ⟨value, effects⟩ := differs
  obtain ⟨result, first, second⟩ := silent plain.value
  constructor <;> simp [value, effects, first, second]

/-- A request with reports of what is written differs from one without by these reports. -/
theorem convert_annotated (conversions : Conversions) (writer : Writer) (handle : ProgramHandle) :
    Differs (convert conversions writer false handle) (convert conversions writer true handle) true
      id := by
  -- Only where the writer is asked and succeeds is something noted.
  cases found : conversions.artifact? handle with
  | some artifact => constructor <;> simp [convert, found, Effect.noted]
  | none =>
    cases written : writer.write handle.program <;> constructor <;>
      simp [convert, found, written, Effect.noted]

section Annotating

variable (factory : Factory) (files : FileSystem) (device : Device) (params : MaterialParams)

/-- A factory that reports what it writes makes the same materials as one that does not. -/
theorem tryCreate_annotated :
    Differs (tryCreate (factory.annotating false) files device params)
      (tryCreate (factory.annotating true) files device params) true
      (Prod.map id (Prod.map (·.annotating true) id)) := by
  have matched := get_matches factory.store files params.path params.defines
  -- Only writings are noted, and no writer is asked before the program is there.
  have unnoted := noted_of_uncalled matched.uncalled
  obtain ⟨value, -, -⟩ := matched
  cases found : (factory.store.get files params.path params.defines).answer with
  | error error =>
    -- A path that is not found makes no material, and the writers stay unasked.
    constructor <;> simp [tryCreate, Factory.annotating, value, found, unnoted]
  | ok handle =>
    obtain ⟨same, noted⟩ := convert_annotated factory.conversions factory.writer handle
    cases converted : (convert factory.conversions factory.writer false handle).value.1 <;>
      constructor <;>
      simp [tryCreate, Factory.annotating, value, found, unnoted, same, noted, converted]

/-- What is reported of a failure is the same, whether or not written programs are reported. -/
theorem create_annotated :
    Differs (create (factory.annotating false) files device params)
      (create (factory.annotating true) files device params) true
      (Prod.map id (Prod.map (·.annotating true) id)) := by
  -- The report of a failure comes after everything that was noted.
  obtain ⟨same, noted⟩ := tryCreate_annotated factory files device params
  cases tried : (tryCreate (factory.annotating false) files device params).value.1 <;>
    constructor <;> simp [create, same, noted, tried, Effect.noted]

end Annotating

end Logged

end Shading

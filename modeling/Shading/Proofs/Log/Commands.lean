import Shading.Proofs.Conversions.Requests
import Shading.Proofs.Log.Operations
import Shading.Proofs.Material.Creation
import Shading.Proofs.Material.Session

/-! Commands to the store, the slots and materials do the same under every level of logging. -/

namespace Shading.Session

/-- Something that is asked of the store, of the slots of written programs, or of materials. -/
inductive Command
  | operate (operation : Operation)
  | get (path : String) (defines : Defines)
  | convert (request : Conversions.Request)
  /-- A material without a program. -/
  | blank (params : MaterialParams)
  /-- From now on, the factory has another writer, or one that behaves differently. -/
  | supply (writer : Writer)

/-- What a command gives back. -/
inductive Answer
  | done
  | program (found : Except ShaderError ProgramHandle)
  | artifact (written : Except WriteError Artifact)
  | material (made : Except MaterialError Material)
  | accepted (checked : Except UniformError Unit)
  | ready (bound : Bool)

/-- What something that is done with the material of a number gives back. -/
def answerOf (session : Session) (index : Nat) (action : MaterialAction) : Answer :=
  match session.materials[index]?, action with
  | some m, .setUniform name value => .accepted ((m.setUniform name value).map fun _ => ())
  | some m, .setTexture name unit => .accepted ((m.setTexture name unit).map fun _ => ())
  | some m, .bind => .ready (m.bind session.device).ready
  | _, _ => .done

/-- The outcome of a command, apart from any level of logging. -/
structure Reply where
  answer : Answer
  session : Session
  /-- A writer had to be asked. -/
  written : Bool
  events : List LogEvent

/-- The outcome of a command without reports. -/
def Reply.quiet (answer : Answer) (session : Session) : Reply :=
  ⟨answer, session, false, []⟩

/-- How a step went according to its outcome, with those of its reports that are printed. -/
def Reply.seen (filter : LogFilter) (reply : Reply) : Answer × Session × Bool × List LogEvent :=
  (reply.answer, reply.session, reply.written, filter.select reply.events)

/-- The session with another store. -/
def withStore (session : Session) (store : Store) : Session :=
  { session with factory := { session.factory with store } }

/-- The session with other slots of written programs. -/
def withConversions (session : Session) (conversions : Conversions) : Session :=
  { session with factory := { session.factory with conversions } }

/-- The session after a material was asked for. -/
def arrive (session : Session) (factory : Factory) (device : Device) (made : List Material) :
    Session :=
  { session with factory, device, materials := session.materials ++ made }

namespace Command

/-- What becomes of a session by a command. -/
def reply (session : Session) : Command → Reply
  | operate (.create params) =>
    let made := session.factory.create session.files session.device params
    ⟨.material (.ok made.answer), session.step (.create params), made.written, made.events⟩
  | operate (.tryCreate params) =>
    let tried := session.factory.tryCreate session.files session.device params
    ⟨.material tried.answer, session.step (.tryCreate params), tried.written, tried.events⟩
  | operate (.parseSource name source defines) =>
    let found := session.factory.store.parseSource name source defines
    ⟨.program found.answer, session.step (.parseSource name source defines), false, found.events⟩
  | operate (.act index action) => .quiet (session.answerOf index action) (session.act index action)
  | operate .clear => .quiet .done (session.step .clear)
  | operate (.provide files) => .quiet .done (session.step (.provide files))
  | operate (.reject reason) => .quiet .done (session.step (.reject reason))
  | get path defines =>
    let found := session.factory.store.get session.files path defines
    ⟨.program found.answer, session.withStore found.store, false, found.events⟩
  | convert request =>
    let written := request.ask session.factory.conversions
    ⟨.artifact written.answer, session.withConversions written.conversions, written.written,
      written.events⟩
  | blank params => .quiet .done { session with materials := session.materials ++ [{ params }] }
  | supply writer => .quiet .done { session with factory := { session.factory with writer } }

/-- What becomes of a session by a command under a level of logging. -/
def perform (session : Session) : Command → Logged (Answer × Session)
  | operate (.create params) => do
    let (made, factory, device) ←
      Logged.create session.factory session.files session.device params
    return (.material (.ok made), session.arrive factory device [made])
  | operate (.tryCreate params) => do
    let (tried, factory, device) ←
      Logged.tryCreate session.factory session.files session.device params
    return (.material tried, session.arrive factory device tried.toOption.toList)
  | operate (.parseSource name source defines) => do
    let (found, store) ← Logged.parseSource session.factory.store name source defines
    return (.program found, session.withStore store)
  | operate (.act index action) => return (session.answerOf index action, session.act index action)
  | operate .clear => return (.done, session.step .clear)
  | operate (.provide files) => return (.done, session.step (.provide files))
  | operate (.reject reason) => return (.done, session.step (.reject reason))
  | get path defines => do
    let (found, store) ← Logged.get session.factory.store session.files path defines
    return (.program found, session.withStore store)
  | convert request => do
    let (written, conversions) ← Logged.convert session.factory.conversions request.writer
      request.annotated request.handle
    return (.artifact written, session.withConversions conversions)
  | blank params => return (.done, { session with materials := session.materials ++ [{ params }] })
  | supply writer => return (.done, { session with factory := { session.factory with writer } })

/-- No level of logging disturbs a command. -/
theorem perform_undisturbed (session : Session) (command : Command) :
    (command.perform session).Undisturbed := by
  -- Most of what is done with a session makes no reports at all.
  cases command with
  | operate operation =>
    cases operation with
    | create => exact (Logged.create_undisturbed _ _ _ _).bind fun _ => .pure _
    | tryCreate => exact (Logged.tryCreate_undisturbed _ _ _ _).bind fun _ => .pure _
    | parseSource => exact (Logged.parseSource_undisturbed _ _ _ _).bind fun _ => .pure _
    | _ => exact .pure _
  | get => exact (Logged.get_undisturbed _ _ _ _).bind fun _ => .pure _
  | convert => exact (Logged.convert_undisturbed _ _ _ _).bind fun _ => .pure _
  | _ => exact .pure _

/-- Under a level of logging, a command does what it does without one. -/
theorem perform_matches (session : Session) (command : Command) :
    let reply := command.reply session
    (command.perform session).Matches (reply.answer, reply.session) reply.events reply.written := by
  -- Only what can be reported was written anew; all else is the same with and without a level.
  cases command with
  | operate operation =>
    cases operation with
    | create => exact (Logged.create_matches _ _ _ _).bind_pure rfl
    | tryCreate => exact (Logged.tryCreate_matches _ _ _ _).bind_pure rfl
    | parseSource => exact (Logged.parseSource_matches _ _ _ _).bind_pure rfl
    | _ => exact ⟨rfl, rfl, rfl⟩
  | get => exact (Logged.get_matches _ _ _ _).bind_pure rfl
  | convert => exact (Logged.convert_matches _ _ _ _).bind_pure rfl
  | _ => exact ⟨rfl, rfl, rfl⟩

/-- The command with a request that reports what is written, if it is a request. -/
def annotating : Command → Command
  | convert request => .convert { request with annotated := true }
  | command => command

/-- The command is a request that does not report what is written. -/
def isPlainRequest : Command → Bool
  | convert request => !request.annotated
  | _ => false

/-- The command makes a material with a program, as far as this is possible. -/
def makes : Command → Bool
  | operate (.create _) | operate (.tryCreate _) => true
  | _ => false

/-- A request that reports what is written differs by these reports from one that does not. -/
theorem perform_annotating (session : Session) (command : Command) :
    (command.perform session).Differs (command.annotating.perform session) command.isPlainRequest
      id := by
  cases command with
  | convert request =>
    obtain ⟨handle, writer, annotated⟩ := request
    cases annotated with
    -- What is reported already is not reported twice.
    | true => exact ⟨rfl, rfl⟩
    | false =>
      exact (Logged.convert_annotated session.factory.conversions writer handle).bind_pure
        fun (_, _) => ⟨_, rfl, rfl⟩
  | _ => exact ⟨rfl, rfl⟩

end Command

/-- The session with reports of what its factory writes, or without them. -/
def annotating (session : Session) (annotated : Bool) : Session :=
  { session with factory := session.factory.annotating annotated }

/-- Where the factory reports what it writes, all that is asked for is as where it does not. -/
theorem Command.perform_annotated (session : Session) (command : Command) :
    (command.perform (session.annotating false)).Differs (command.perform (session.annotating true))
      command.makes (Prod.map id (·.annotating true)) := by
  -- Only the creation of a material asks the factory, and it was compared before.
  cases command with
  | operate operation =>
    cases operation with
    | create params =>
      exact (Logged.create_annotated session.factory session.files session.device params).bind_pure
        fun (_, _, _) => ⟨_, rfl, rfl⟩
    | tryCreate params =>
      exact (Logged.tryCreate_annotated session.factory session.files session.device
        params).bind_pure fun (_, _, _) => ⟨_, rfl, rfl⟩
    -- What is done with a material never asks its factory for anything.
    | act index action =>
      refine ⟨?_, rfl⟩
      cases found : session.materials[index]? <;>
        simp [perform, Session.annotating, Factory.annotating, answerOf, act, put, found]
    | _ => exact ⟨rfl, rfl⟩
  | _ => exact ⟨rfl, rfl⟩

/-- A session that reports what it writes already, or does not, is not changed by that. -/
theorem annotating_self {session : Session} {annotated : Bool}
    (same : session.factory.annotated = annotated) :
    session.annotating annotated = session := by
  -- The factory already has this setting.
  subst same
  rfl

/-- No command changes whether the factory reports what it writes. -/
theorem Command.annotated_perform (session : Session) (command : Command) :
    (command.perform session).value.2.factory.annotated = session.factory.annotated := by
  -- A new material leaves another store and another slot, and the factory is else the same.
  have kept (params : MaterialParams) :
      (session.factory.tryCreate session.files session.device params).factory.annotated =
        session.factory.annotated := by
    dsimp only [Factory.tryCreate]
    split
    · rfl
    · split <;> rfl
  rw [(command.perform_matches session).value]
  -- For all commands but the creation of a material this is seen from what they leave.
  cases command with
  | operate operation =>
    cases operation with
    | create params =>
      rw [← kept params, ← (session.factory.create_eq_tryCreate _ _ _).1]
      rfl
    | tryCreate params => exact kept params
    | act index action =>
      dsimp only [reply, Reply.quiet, act]
      split <;> rfl
    | _ => rfl
  | _ => rfl

end Shading.Session

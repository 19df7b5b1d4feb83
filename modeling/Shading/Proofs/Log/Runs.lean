import Shading.Proofs.Log.Commands

/-! Runs under different levels of logging differ in nothing but what they print. -/

namespace Shading.Session

/-- What is seen of one step of a run: the answer, the session that is left, and the effects. -/
structure Entry where
  answer : Answer
  session : Session
  effects : List Effect

namespace Entry

/-- What was printed. -/
def records (entry : Entry) : List LogEvent :=
  Effect.records entry.effects

/-- Everything but what was printed: the answer, the session, and the calls of writers. -/
def silent (entry : Entry) : Answer × Session × List (Program × Except WriteError Converted) :=
  (entry.answer, entry.session, Effect.writerCalls entry.effects)

/-- How a step went: its answer, the session, whether it asked a writer, and what it printed. -/
def seen (entry : Entry) : Answer × Session × Bool × List LogEvent :=
  (entry.answer, entry.session, !(Effect.writerCalls entry.effects).isEmpty, entry.records)

/-- What is seen under a filter. -/
def under (filter : LogFilter) (entry : Entry) : Entry :=
  { entry with effects := filter.passed entry.effects }

/-- What is seen under a filter when each stage that was written is reported behind its writing. -/
def noted (filter : LogFilter) (entry : Entry) : Entry :=
  { entry with effects := filter.passed (entry.effects.flatMap Effect.noted) }

/-- What is seen in a session whose factory reports what it writes. -/
def annotating (entry : Entry) : Entry :=
  { entry with session := entry.session.annotating true }

end Entry

/-- A run of commands under a level of logging. -/
def run (filter : LogFilter) (session : Session) : List Command → List Entry
  | [] => []
  | command :: rest =>
    let ((answer, after), effects) := (command.perform session).run filter
    ⟨answer, after, effects⟩ :: run filter after rest

/-- The outcomes of commands, apart from any level of logging. -/
def replies (session : Session) : List Command → List Reply
  | [] => []
  | command :: rest =>
    command.reply session :: replies (command.reply session).session rest

/-- Where a run starts: in some session, or with a new factory, which is reported. -/
inductive Start
  | within (session : Session)
  | opening (config : Config) (writer : Writer) (files : FileSystem) (device : Device)

/-- The session that a run starts with. -/
def Start.enter : Start → Logged Session
  | within session => pure session
  | opening config writer files device => do
    let factory ← Logged.withWriter config writer
    return { factory, files, device }

/-- The outcome of a start, apart from any level of logging. -/
def Start.reply : Start → Reply
  | within session => .quiet .done session
  | opening config writer files device =>
    let factory := Factory.withWriter config writer
    ⟨.done, { factory, files, device }, false, factory.opening⟩

/-- Everything that is seen of commands under a level of logging, from the start on. -/
def trace (filter : LogFilter) (start : Start) (commands : List Command) : List Entry :=
  let (session, effects) := start.enter.run filter
  ⟨.done, session, effects⟩ :: run filter session commands

variable {filter : LogFilter} {session : Session} {command : Command} {rest : List Command}

/-- The first command of a run is followed by the others in the session that it leaves. -/
theorem run_cons :
    run filter session (command :: rest) =
      ⟨(command.perform session).value.1, (command.perform session).value.2,
          filter.passed (command.perform session).effects⟩ ::
        run filter (command.perform session).value.2 rest := by
  -- A command gives the same under every filter, so that the others start in the same session.
  rw [run, command.perform_undisturbed session filter]

/-- A run is seen as far as the filter lets it pass. -/
theorem run_eq_under (filter : LogFilter) (session : Session) (commands : List Command) :
    run filter session commands = (run (some .trace) session commands).map (.under filter) := by
  -- Along the commands, which leave the same session under the least severe level.
  induction commands generalizing session with
  | nil => rfl
  | cons command rest ih => rw [run_cons, run_cons, ih, List.map_cons, Entry.under, passed_trace]

/-- Nothing disturbs the start of a run. -/
theorem Start.enter_undisturbed (start : Start) : start.enter.Undisturbed := by
  -- Opening a session is one report.
  cases start with
  | within => exact .pure _
  | opening =>
    exact ((Logged.report_undisturbed _).bind fun _ => .pure _).bind fun _ => .pure _

/-- From the start on, a run is seen as far as the filter lets it pass. -/
theorem trace_eq_under (filter : LogFilter) (start : Start) (commands : List Command) :
    trace filter start commands = (trace (some .trace) start commands).map (.under filter) := by
  -- The start is one more entry in front of the run.
  rw [trace, trace, start.enter_undisturbed filter, start.enter_undisturbed (some .trace)]
  simp only [run_eq_under filter, List.map_cons, Entry.under, passed_trace]

/-- Under a level of logging, a run starts as without one. -/
theorem Start.enter_matches (start : Start) :
    start.enter.Matches start.reply.session start.reply.events start.reply.written := by
  -- Only a session that is opened has a report at its start.
  cases start with
  | within => exact ⟨rfl, rfl, rfl⟩
  | opening config writer => exact (Logged.withWriter_matches writer config).bind_pure rfl

/-- Under a level of logging, a run goes as without one, and what this selects is printed. -/
theorem run_matches (filter : LogFilter) (session : Session) (commands : List Command) :
    (run filter session commands).map Entry.seen =
      (replies session commands).map (Reply.seen filter) := by
  induction commands generalizing session with
  | nil => rfl
  | cons command rest ih =>
    -- The commands that follow start from the session that both leave.
    obtain ⟨value, events, written⟩ := command.perform_matches session
    rw [run_cons, replies, List.map_cons, List.map_cons, ih, value, Entry.seen, Reply.seen,
      Entry.records, records_passed, writerCalls_passed, events, written, Bool.not_not]

/-- The same holds from the start on. -/
theorem trace_matches (filter : LogFilter) (start : Start) (commands : List Command) :
    (trace filter start commands).map Entry.seen =
      (start.reply :: replies start.reply.session commands).map (Reply.seen filter) := by
  -- The start is one more entry in front of the run.
  obtain ⟨value, events, written⟩ := start.enter_matches
  rw [trace, start.enter_undisturbed filter]
  simp only [List.map_cons, run_matches, value]
  rw [Entry.seen, Reply.seen, Entry.records, records_passed, writerCalls_passed, events, written,
    Bool.not_not]
  cases start <;> rfl

/-- What a step is seen as when its stages are reported newly. -/
theorem noted_mk (filter : LogFilter) (answer : Answer) (session : Session) (effects : List Effect)
    (newly : Bool) :
    (⟨answer, session,
        filter.passed (if newly then effects.flatMap Effect.noted else effects)⟩ : Entry) =
      if newly then Entry.noted filter ⟨answer, session, filter.passed effects⟩
      else ⟨answer, session, filter.passed effects⟩ := by
  -- Effects are filtered after the notes were made, which gives the same as before.
  cases newly with
  | false => rfl
  | true => simp only [if_true, Entry.noted, passed_noted]

/-- Requests that are replaced by ones that report what is written are seen with these reports. -/
theorem run_annotating (filter : LogFilter) (session : Session)
    (requests : List (Command × Bool)) :
    run filter session (requests.map fun (command, replaced) =>
        if replaced then command.annotating else command) =
      List.zipWith (fun entry (command, replaced) =>
          if replaced && command.isPlainRequest then entry.noted filter else entry)
        (run filter session (requests.map (·.1))) requests := by
  induction requests generalizing session with
  | nil => rfl
  | cons request rest ih =>
    obtain ⟨command, replaced⟩ := request
    obtain ⟨same, noted⟩ := command.perform_annotating session
    cases replaced with
    | false => simp [run_cons, ih]
    -- The session that is left is the same, so that the rest is seen as before.
    | true => simp [run_cons, ih, same, noted, noted_mk]

/-- Where a factory reports what it writes, a run is seen with these reports. -/
theorem run_annotated (filter : LogFilter) (session : Session) (commands : List Command) :
    run filter (session.annotating true) commands =
      List.zipWith (fun entry command =>
          (if command.makes then entry.noted filter else entry).annotating)
        (run filter (session.annotating false) commands) commands := by
  induction commands generalizing session with
  | nil => rfl
  | cons command rest ih =>
    obtain ⟨same, noted⟩ := command.perform_annotated session
    -- The session after the command is again one that does not report what it writes.
    have silent : (command.perform (session.annotating false)).value.2.annotating false =
        (command.perform (session.annotating false)).value.2 :=
      annotating_self (command.annotated_perform _)
    have later := ih (command.perform (session.annotating false)).value.2
    rw [silent] at later
    -- The first command is compared with itself, and the rest by the induction.
    rw [run_cons, run_cons, same, noted, noted_mk, Prod.map_snd, List.zipWith_cons_cons, later]
    cases command.makes <;> rfl

/--
Logging never interferes with what is done.

Under every level, a run goes as it goes without one, and prints what is selected of its reports.
Two levels leave the same answers, sessions and calls of writers, step by step.
What is printed under a level is what it selects of everything that is printed at the least severe.
Requests that report what they write are seen with these reports behind each writing that succeeds,
and with nothing else; so are the materials of a factory that reports what it writes.
-/
theorem logging_never_interferes :
    (∀ filter start commands,
      (trace filter start commands).map Entry.seen =
        (start.reply :: replies start.reply.session commands).map (Reply.seen filter)) ∧
    (∀ filter filter' start commands,
      (trace filter start commands).map Entry.silent =
        (trace filter' start commands).map Entry.silent) ∧
    (∀ filter start commands,
      (trace filter start commands).map Entry.records =
        (trace (some .trace) start commands).map fun entry => filter.select entry.records) ∧
    (∀ filter session (requests : List (Command × Bool)),
      run filter session (requests.map fun (command, replaced) =>
          if replaced then command.annotating else command) =
        List.zipWith (fun entry (command, replaced) =>
            if replaced && command.isPlainRequest then entry.noted filter else entry)
          (run filter session (requests.map (·.1))) requests) ∧
    ∀ filter (session : Session) commands,
      run filter (session.annotating true) commands =
        List.zipWith (fun entry command =>
            (if command.makes then entry.noted filter else entry).annotating)
          (run filter (session.annotating false) commands) commands := by
  have silent_under (filter : LogFilter) :
      Entry.silent ∘ Entry.under filter = Entry.silent := by
    funext entry
    simp only [Function.comp_apply, Entry.silent, Entry.under, writerCalls_passed]
  -- Two of the parts follow from the others, by way of the least severe level.
  refine ⟨trace_matches, ?levels, ?printed, run_annotating, run_annotated⟩
  case levels =>
    intro filter filter' start commands
    rw [trace_eq_under filter, trace_eq_under filter', List.map_map, List.map_map, silent_under,
      silent_under]
  -- Selecting from all records is selecting them entry by entry.
  case printed =>
    intro filter start commands
    rw [trace_eq_under filter, List.map_map]
    refine List.map_congr_left fun entry _ => ?_
    simp only [Function.comp_apply, Entry.records, Entry.under, records_passed]

end Shading.Session

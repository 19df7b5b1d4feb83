import Shading.Log

/-! What is done under a level of logging, with what is printed and what is written meanwhile. -/

namespace Shading

/-- Something that is seen from outside while something is done. -/
inductive Effect
  | printed (event : LogEvent)
  /-- A writer was asked for a program, and this is what it answered. -/
  | wrote (program : Program) (result : Except WriteError Converted)

/-- A filter keeps reports from being printed, and nothing from being written. -/
def LogFilter.passes (filter : LogFilter) : Effect → Bool
  | .printed event => filter.admits event.level
  | .wrote _ _ => true

/-- What is seen of effects under a filter. -/
def LogFilter.passed (filter : LogFilter) (effects : List Effect) : List Effect :=
  effects.filter filter.passes

/-- The reports among effects. -/
def Effect.records (effects : List Effect) : List LogEvent :=
  effects.filterMap fun
    | .printed event => some event
    | .wrote _ _ => none

/-- The calls of writers among effects, with their answers. -/
def Effect.writerCalls (effects : List Effect) : List (Program × Except WriteError Converted) :=
  effects.filterMap fun
    | .printed _ => none
    | .wrote program result => some (program, result)

namespace Effect

variable (event : LogEvent) (events : List LogEvent) (program : Program)
  (result : Except WriteError Converted) (effects more : List Effect)

@[simp] theorem records_nil : records [] = [] := rfl

@[simp] theorem records_printed :
    records (.printed event :: effects) = event :: records effects := rfl

@[simp] theorem records_wrote : records (.wrote program result :: effects) = records effects := rfl

@[simp] theorem records_append : records (effects ++ more) = records effects ++ records more :=
  -- Each effect is filtered on its own.
  List.filterMap_append

@[simp] theorem records_map : records (events.map .printed) = events := by
  -- One record for each event.
  induction events with
  | nil => rfl
  | cons event events ih => rw [List.map_cons, records_printed, ih]

@[simp] theorem writerCalls_nil : writerCalls [] = [] := rfl

@[simp] theorem writerCalls_printed :
    writerCalls (.printed event :: effects) = writerCalls effects := rfl

@[simp] theorem writerCalls_wrote :
    writerCalls (.wrote program result :: effects) = (program, result) :: writerCalls effects := rfl

@[simp] theorem writerCalls_append :
    writerCalls (effects ++ more) = writerCalls effects ++ writerCalls more :=
  -- Each effect is filtered on its own.
  List.filterMap_append

@[simp] theorem writerCalls_map : writerCalls (events.map .printed) = [] := by
  -- A report is no call of a writer.
  induction events with
  | nil => rfl
  | cons event events ih => rw [List.map_cons, writerCalls_printed, ih]

end Effect

/-- An effect with the stages that were written by it, line by line. -/
def Effect.noted : Effect → List Effect
  | .wrote program (.ok converted) =>
    let lines := annotations .vertex converted.vertex ++ annotations .fragment converted.fragment
    .wrote program (.ok converted) :: lines.map .printed
  | effect => [effect]

section Filtering

variable (filter : LogFilter) (effects more : List Effect)

/-- Effects in a row are seen in a row. -/
theorem passed_append :
    filter.passed (effects ++ more) = filter.passed effects ++ filter.passed more :=
  -- Whether an effect is seen has nothing to do with the others.
  List.filter_append effects more

/-- The least severe level admits all levels. -/
theorem admits_trace (level : LogLevel) : LogFilter.admits (some .trace) level = true := by
  -- Levels are compared by their severity, and there are few of them.
  cases level <;> rfl

/-- Everything is seen where the least severe level is printed. -/
theorem passed_trace : LogFilter.passed (some .trace) effects = effects := by
  -- Calls of writers are always seen, and every level is admitted.
  refine List.filter_eq_self.mpr fun effect _ => ?_
  cases effect with
  | wrote => rfl
  | printed event => exact admits_trace event.level

/-- The reports that are seen are those that the filter selects. -/
theorem records_passed :
    Effect.records (filter.passed effects) = filter.select (Effect.records effects) := by
  simp only [Effect.records, LogFilter.passed, LogFilter.select, List.filterMap_filter,
    List.filter_filterMap]
  refine congrArg (List.filterMap · effects) (funext fun effect => ?_)
  -- A filter drops reports only, and all that is written passes it.
  cases effect with
  | wrote => rfl
  | printed event =>
    cases admitted : filter.admits event.level <;>
      simp [LogFilter.passes, Option.filter, admitted]

/-- Every call of a writer is seen. -/
theorem writerCalls_passed :
    Effect.writerCalls (filter.passed effects) = Effect.writerCalls effects := by
  -- The filter only drops reports, and these are no calls.
  simp only [Effect.writerCalls, LogFilter.passed, List.filterMap_filter]
  refine congrArg (List.filterMap · effects) (funext fun effect => ?_)
  cases effect with
  | wrote => rfl
  | printed event =>
    cases admitted : filter.admits event.level <;> simp [LogFilter.passes, admitted]

/-- What is noted of effects that are not seen is not seen either. -/
theorem passed_noted :
    filter.passed ((filter.passed effects).flatMap Effect.noted) =
      filter.passed (effects.flatMap Effect.noted) := by
  -- Effect by effect, since notes are made of each one on its own.
  induction effects with
  | nil => rfl
  | cons effect effects ih =>
    by_cases seen : filter.passes effect = true
    · have kept : filter.passed (effect :: effects) = effect :: filter.passed effects :=
        List.filter_cons_of_pos seen
      rw [kept, List.flatMap_cons, List.flatMap_cons, passed_append, passed_append, ih]
    · have dropped : filter.passed (effect :: effects) = filter.passed effects :=
        List.filter_cons_of_neg seen
      -- An effect that is not seen is a report, of which nothing more is noted.
      cases effect with
      | wrote => exact absurd rfl seen
      | printed event =>
        have hidden : filter.passed (Effect.printed event).noted = [] :=
          List.filter_cons_of_neg seen
        rw [dropped, List.flatMap_cons, passed_append, hidden, ih, List.nil_append]

end Filtering

/-- Nothing is noted where no writer was asked. -/
theorem noted_of_uncalled {effects : List Effect} (uncalled : Effect.writerCalls effects = []) :
    effects.flatMap Effect.noted = effects := by
  induction effects with
  | nil => rfl
  | cons effect effects ih =>
    -- Notes are made of writings only.
    cases effect with
    | wrote => cases uncalled
    | printed event =>
      rw [List.flatMap_cons, ih uncalled]
      rfl

/-- Written stages are reported for debugging. -/
theorem level_of_mem_annotations {stage : Stage} {source : String} {event : LogEvent}
    (member : event ∈ annotations stage source) : event.level = .debug := by
  -- The heading and all lines have one level.
  simp only [annotations, List.mem_cons, List.mem_mapIdx] at member
  obtain rfl | ⟨index, _, rfl⟩ := member <;> rfl

/-- Something that is done under a filter, which may be looked at whenever this is wanted. -/
structure Logged (α : Type) where
  run : LogFilter → α × List Effect

namespace Logged

variable {α β : Type}

instance : Monad Logged where
  pure value := ⟨fun _ => (value, [])⟩
  bind action next := ⟨fun filter =>
    let (value, effects) := action.run filter
    let (result, more) := (next value).run filter
    (result, effects ++ more)⟩

/-- Reports something if the filter admits it. -/
def report (event : LogEvent) : Logged Unit where
  run filter := ((), if filter.admits event.level then [.printed event] else [])

/-- Whether reports of a level would be printed. -/
def enabled (level : LogLevel) : Logged Bool where
  run filter := (filter.admits level, [])

/-- Asks a writer for a program. -/
def write (writer : Writer) (program : Program) : Logged (Except WriteError Converted) where
  run _ := (writer.write program, [.wrote program (writer.write program)])

/-- Reports a written stage: a heading, and its lines with their numbers. -/
def lineByLine (stage : Stage) (source : String) : Logged Unit := do
  report (.sourceHeading stage)
  ((Text.lines source).mapIdx fun index line => .sourceLine (index + 1) line).forM report

/-- Reports a written stage, or leaves at once when nobody would see it. -/
def annotate (stage : Stage) (source : String) : Logged Unit := do
  if ← enabled .debug then lineByLine stage source

/-- The value where everything is printed. -/
def value (action : Logged α) : α :=
  (action.run (some .trace)).1

/-- Everything there is to see, in its order. -/
def effects (action : Logged α) : List Effect :=
  (action.run (some .trace)).2

/-- Whichever the filter is, the value is the same, and what is seen is what the filter passes of
everything there is to see. -/
def Undisturbed (action : Logged α) : Prop :=
  ∀ filter, action.run filter = (action.value, filter.passed action.effects)

@[simp] theorem value_pure (value : α) : (pure value : Logged α).value = value := rfl

@[simp] theorem effects_pure (value : α) : (pure value : Logged α).effects = [] := rfl

@[simp] theorem value_bind (action : Logged α) (next : α → Logged β) :
    (action >>= next).value = (next action.value).value := rfl

@[simp] theorem effects_bind (action : Logged α) (next : α → Logged β) :
    (action >>= next).effects = action.effects ++ (next action.value).effects := rfl

/-- Reports are printed where everything is. -/
@[simp] theorem effects_report (event : LogEvent) : (report event).effects = [.printed event] :=
  -- The filter of the effects is the one that admits all.
  if_pos (admits_trace event.level)

@[simp] theorem value_write (writer : Writer) (program : Program) :
    (write writer program).value = writer.write program := rfl

@[simp] theorem effects_write (writer : Writer) (program : Program) :
    (write writer program).effects = [.wrote program (writer.write program)] := rfl

/-- Reports in a row are printed in a row. -/
@[simp] theorem effects_forM_report (events : List LogEvent) :
    (forM events report).effects = events.map .printed := by
  -- One report after the other.
  induction events with
  | nil => rfl
  | cons event events ih => simp [ih]

/-- A stage is printed as its heading and its lines where everything is. -/
@[simp] theorem effects_annotate (stage : Stage) (source : String) :
    (annotate stage source).effects = (annotations stage source).map .printed := by
  -- Where debugging is admitted, the stage is reported line by line.
  have entered : (annotate stage source).effects = (lineByLine stage source).effects := rfl
  simp [entered, lineByLine, annotations]

variable {action : Logged α} {next : α → Logged β}

/-- Nothing is seen where nothing is done. -/
theorem Undisturbed.pure (value : α) : Undisturbed (Pure.pure value) :=
  -- An action without effects has the same result under every filter.
  fun _ => rfl

/-- What consists of undisturbed parts is undisturbed. -/
theorem Undisturbed.bind (first : Undisturbed action) (second : ∀ value, Undisturbed (next value)) :
    Undisturbed (action >>= next) := by
  -- The second part gets the same value, and the effects are filtered part by part.
  intro filter
  have both : (action >>= next).run filter = (((next (action.run filter).1).run filter).1,
      (action.run filter).2 ++ ((next (action.run filter).1).run filter).2) := rfl
  rw [both, first filter, second _ filter, effects_bind, passed_append, value_bind]

/-- A report changes nothing but what is printed. -/
theorem report_undisturbed (event : LogEvent) : Undisturbed (report event) := by
  -- A report is one effect, which is either seen or dropped.
  intro filter
  rw [effects_report]
  cases admitted : filter.admits event.level <;>
    simp [report, LogFilter.passed, LogFilter.passes, admitted]

/-- A writer is asked under every filter. -/
theorem write_undisturbed (writer : Writer) (program : Program) :
    Undisturbed (write writer program) :=
  -- Calls of writers are no reports.
  fun _ => rfl

/-- Reports in a row change nothing but what is printed. -/
theorem forM_report_undisturbed (events : List LogEvent) : Undisturbed (events.forM report) := by
  -- One report after the other.
  induction events with
  | nil => exact .pure ()
  | cons event events ih => exact (report_undisturbed event).bind fun _ => ih

/-- Leaving at once hides nothing that the filter would have let through. -/
theorem annotate_undisturbed (stage : Stage) (source : String) :
    Undisturbed (annotate stage source) := by
  have whole : Undisturbed (lineByLine stage source) :=
    (report_undisturbed _).bind fun _ => forM_report_undisturbed _
  intro filter
  have looked : (annotate stage source).run filter =
      (if filter.admits .debug then lineByLine stage source else pure ()).run filter := rfl
  rw [looked]
  split
  · -- Where the level is admitted nothing is skipped.
    exact whole filter
  · rename_i hidden
    -- All lines are of the level that was looked for.
    have nothing : filter.passed (annotate stage source).effects = [] := by
      simp only [effects_annotate, LogFilter.passed, List.filter_eq_nil_iff, List.forall_mem_map]
      intro event member
      rwa [LogFilter.passes, level_of_mem_annotations member]
    rw [nothing]
    rfl

end Logged

end Shading

import Mathlib.Data.List.Induction
import Shading.Conversions

/-! Runs of requests for artifacts: the first that succeeds for a program writes it. -/

namespace Shading.Conversions

/-- A request for the artifact of a program, with the writer that may be asked for it. -/
structure Request where
  handle : ProgramHandle
  writer : Writer
  annotated : Bool

/-- The reply to a request. -/
def Request.ask (request : Request) (conversions : Conversions) : Reply :=
  conversions.convert request.writer request.annotated request.handle

/-- The artifacts after a run of requests. -/
def after (conversions : Conversions) (run : List Request) : Conversions :=
  run.foldl (fun kept request => (request.ask kept).conversions) conversions

/-- A request for the program returned an artifact in a run that starts without any. -/
def Returned (run : List Request) (handle : ProgramHandle) (artifact : Artifact) : Prop :=
  ∃ before request later, run = before ++ request :: later ∧
    request.handle.number = handle.number ∧ (request.ask (after {} before)).answer = .ok artifact

variable {conversions : Conversions} {run : List Request} {request : Request}
  {handle handle' : ProgramHandle} {artifact artifact' : Artifact}

/-- The artifact of a program that was just written is kept in front of all others. -/
theorem artifact?_fill (conversions : Conversions) (handle handle' : ProgramHandle)
    (converted : Converted) :
    (conversions.fill handle converted).2.artifact? handle' =
      if handle'.number = handle.number then some ⟨conversions.slots.length, converted⟩
      else conversions.artifact? handle' := by
  -- The new slot stands in front, so it hides all slots of the same number and no others.
  unfold artifact? fill
  by_cases same : handle'.number = handle.number
  · simp [same]
  · have differs : (handle'.number == handle.number) = false := by simpa using same
    simp [List.lookup_cons, same, differs]

/-- Programs with one number have one artifact. -/
theorem artifact?_congr (same : handle.number = handle'.number) :
    conversions.artifact? handle = conversions.artifact? handle' := by
  -- Slots are looked up by the number alone.
  rw [artifact?, same, artifact?]

/-- What becomes of a request: its program was written before, or its writer fails or succeeds. -/
inductive Answers (conversions : Conversions) (request : Request) (reply : Reply) : Prop
  | hit {artifact : Artifact} (found : conversions.artifact? request.handle = some artifact)
    (answer : reply.answer = .ok artifact) (same : reply.conversions = conversions)
    (unasked : reply.written = false)
  | failure {error} (missing : conversions.artifact? request.handle = none)
    (failed : request.writer.write request.handle.program = .error error)
    (answer : reply.answer = .error error) (same : reply.conversions = conversions)
    (asked : reply.written = true)
  -- The number of an artifact is the count of those that were written before it.
  | fresh {converted} (missing : conversions.artifact? request.handle = none)
    (succeeded : request.writer.write request.handle.program = .ok converted)
    (answer : reply.answer = .ok ⟨conversions.slots.length, converted⟩)
    (filled : reply.conversions = (conversions.fill request.handle converted).2)
    (asked : reply.written = true)

/-- Every request is answered in one of these ways. -/
theorem answers_ask (conversions : Conversions) (request : Request) :
    Answers conversions request (request.ask conversions) := by
  unfold Request.ask convert
  -- The slot is looked at first, and the writer is asked only where it is empty.
  cases found : conversions.artifact? request.handle with
  | some artifact => exact .hit found rfl rfl rfl
  | none =>
    -- A failure of the writer is told from a success, which fills the slot.
    cases written : request.writer.write request.handle.program with
    | error error =>
      simp only [written]
      exact .failure found written rfl rfl rfl
    | ok converted =>
      simp only [written]
      exact .fresh found written rfl rfl rfl

/-- A request leaves the slots of all other programs as they are. -/
theorem artifact?_ask_others (differs : handle.number ≠ request.handle.number) :
    (request.ask conversions).conversions.artifact? handle = conversions.artifact? handle := by
  -- Only a request that writes changes the slots, and it fills that of its own program.
  cases conversions.answers_ask request with
  | hit _ _ same | failure _ _ _ same => rw [same]
  | fresh _ _ _ filled => rw [filled, artifact?_fill, if_neg differs]

/-- A slot that is filled keeps its artifact, whatever is asked for. -/
theorem artifact?_ask_of_artifact? (found : conversions.artifact? handle = some artifact)
    (request : Request) :
    (request.ask conversions).conversions.artifact? handle = some artifact := by
  cases conversions.answers_ask request with
  | hit _ _ same | failure _ _ _ same => rwa [same]
  | fresh missing _ _ filled =>
    rw [filled, artifact?_fill, if_neg]
    · exact found
    · -- Only an empty slot is filled, and this one is not empty.
      intro same
      rw [← artifact?_congr same, found] at missing
      cases missing

/-- The artifact that a request returns is in the slot of its program from then on. -/
theorem artifact?_ask_of_answer (returned : (request.ask conversions).answer = .ok artifact) :
    (request.ask conversions).conversions.artifact? request.handle = some artifact := by
  -- A slot that was filled before is left alone, and an empty one is filled with the answer.
  cases conversions.answers_ask request with
  | hit found answer same =>
    rw [returned] at answer
    cases answer
    rwa [same]
  | failure _ _ answer =>
    rw [returned] at answer
    cases answer
  -- The new artifact is the one that was answered.
  | fresh _ _ answer filled =>
    rw [returned] at answer
    cases answer
    rw [filled, artifact?_fill, if_pos rfl]

/-- The first request of a run is followed by the others. -/
@[simp] theorem after_cons (conversions : Conversions) (request : Request) (run : List Request) :
    conversions.after (request :: run) = (request.ask conversions).conversions.after run := rfl

/-- A run that continues another one starts where that one ends. -/
@[simp] theorem after_append (conversions : Conversions) (run next : List Request) :
    conversions.after (run ++ next) = (conversions.after run).after next :=
  -- A run is a fold over its requests.
  List.foldl_append

/-- A slot that is filled keeps its artifact through every run. -/
theorem artifact?_after_of_artifact? (found : conversions.artifact? handle = some artifact)
    (run : List Request) : (conversions.after run).artifact? handle = some artifact := by
  -- No request of the run changes a slot that is filled.
  induction run generalizing conversions with
  | nil => exact found
  | cons request run ih => exact ih (artifact?_ask_of_artifact? found request)

/-- What one more request adds to a run: it may have returned an artifact of its own program. -/
theorem returned_append_iff :
    Returned (run ++ [request]) handle artifact ↔
      Returned run handle artifact ∨ request.handle.number = handle.number ∧
        (request.ask (after {} run)).answer = .ok artifact := by
  constructor
  · rintro ⟨before, other, later, whole, same, returned⟩
    -- The request that returned it is the last one, or stands before it.
    rcases List.eq_nil_or_concat later with rfl | ⟨between, last, rfl⟩
    · obtain ⟨rfl, last⟩ := List.append_inj' whole rfl
      cases last
      exact .inr ⟨same, returned⟩
    · rw [List.concat_eq_append, ← List.cons_append, ← List.append_assoc] at whole
      obtain ⟨rfl, -⟩ := List.append_inj' whole rfl
      exact .inl ⟨before, other, between, rfl, same, returned⟩
  · -- Conversely both kinds of requests stand in the longer run.
    rintro (⟨before, other, later, rfl, same, returned⟩ | ⟨same, returned⟩)
    · exact ⟨before, other, later ++ [request], by simp, same, returned⟩
    · exact ⟨run, request, [], rfl, same, returned⟩

/-- After a run, the slot of a program holds exactly what its requests have returned. -/
theorem artifact?_after_iff :
    (after {} run).artifact? handle = some artifact ↔ Returned run handle artifact := by
  constructor
  · -- From the end of the run to its start: the last request filled the slot, or found it filled.
    induction run using List.reverseRecOn with
    | nil => exact nofun
    | append_singleton run request ih =>
      intro found
      rw [after_append, returned_append_iff] at *
      -- A request for another program leaves this slot as it was.
      by_cases same : request.handle.number = handle.number
      · cases (after {} run).answers_ask request with
        | hit _ _ kept | failure _ _ _ kept =>
          left
          apply ih
          rwa [← kept]
        | fresh _ _ answer filled =>
          right
          change (request.ask (after {} run)).conversions.artifact? handle = _ at found
          rw [filled, artifact?_fill, if_pos same.symm] at found
          exact ⟨same, answer.trans (congrArg _ (Option.some.inj found))⟩
      · left
        apply ih
        rwa [← artifact?_ask_others fun equal => same equal.symm]
  · rintro ⟨before, request, later, rfl, same, returned⟩
    -- The slot holds what was returned since then.
    rw [after_append, after_cons]
    refine artifact?_after_of_artifact? ?_ later
    rw [← artifact?_congr same]
    exact artifact?_ask_of_answer returned

/-- Artifacts are told apart by their numbers, and the next number is not yet given out. -/
structure Distinct (conversions : Conversions) : Prop where
  below : ∀ {handle artifact}, conversions.artifact? handle = some artifact →
    artifact.number < conversions.slots.length
  injective : ∀ {handle handle' artifact artifact'}, conversions.artifact? handle = some artifact →
    conversions.artifact? handle' = some artifact' → artifact.number = artifact'.number →
    handle.number = handle'.number

/-- Requests keep the artifacts apart. -/
theorem Distinct.ask (distinct : conversions.Distinct) (request : Request) :
    (request.ask conversions).conversions.Distinct := by
  -- Only a request that writes gives out a number.
  cases conversions.answers_ask request with
  | hit _ _ same | failure _ _ _ same => rwa [same]
  | @fresh converted _ _ _ filled =>
    rw [filled]
    have longer : (conversions.fill request.handle converted).2.slots.length =
        conversions.slots.length + 1 := rfl
    constructor
    · -- All numbers are below the next one, which has gone up by one.
      intro handle artifact found
      rw [artifact?_fill] at found
      split at found
      · cases found
        simp [longer]
      · have := distinct.below found
        omega
    · intro handle handle' artifact artifact' found found' same
      rw [artifact?_fill] at found found'
      -- The new number is larger than all that were given out before.
      split at found <;> split at found'
      · rename_i isNew isNew'
        exact isNew.trans isNew'.symm
      · cases found
        have := distinct.below found'
        simp only at same
        omega
      · cases found'
        have := distinct.below found
        simp only at same
        omega
      · exact distinct.injective found found' same

/-- Runs keep the artifacts apart. -/
theorem Distinct.after (distinct : conversions.Distinct) (run : List Request) :
    (conversions.after run).Distinct := by
  -- Each request keeps them apart, from the first to the last.
  induction run generalizing conversions with
  | nil => exact distinct
  | cons request run ih => exact ih (distinct.ask request)

/--
Every program is written at most once, by the first request for it that succeeds.

The writer of a request is asked exactly when no request for the program returned an artifact.
From then on that very artifact is returned, and a failure leaves all slots as they were.
-/
theorem answers_by_first_success (run : List Request) (request : Request) :
    let slots := after {} run
    let reply := request.ask slots
    (reply.written = true ↔ ∀ artifact, ¬Returned run request.handle artifact) ∧
      (reply.written = true → reply.answer.map (·.converted) =
        request.writer.write request.handle.program) ∧
      (∀ artifact, Returned run request.handle artifact →
        reply.answer = .ok artifact ∧ reply.conversions = slots) ∧
      (∀ error, reply.answer = .error error →
        request.writer.write request.handle.program = .error error ∧ reply.conversions = slots) ∧
      (∀ handle, slots.isConverted handle = true ↔ ∃ artifact, Returned run handle artifact) ∧
      (∀ handle, handle.number ≠ request.handle.number →
        reply.conversions.artifact? handle = slots.artifact? handle) ∧
      ∀ handle handle' artifact artifact', Returned run handle artifact →
        Returned run handle' artifact' → artifact.number = artifact'.number →
        handle.number = handle'.number := by
  dsimp only
  -- What was returned before the request is what the slots hold.
  simp only [← artifact?_after_iff]
  have distinct : (after {} run).Distinct := by
    refine Distinct.after ⟨?_, ?_⟩ run <;> exact nofun
  refine ⟨?_, ?_, ?_, ?_, ?_, fun _ differs => artifact?_ask_others differs,
    fun _ _ _ _ found found' same => distinct.injective found found' same⟩
  · -- The writer is asked where the slot is empty, and the slot is empty where it is asked.
    cases (after {} run).answers_ask request with
    | hit found _ _ unasked => simp [found, unasked]
    | failure missing _ _ _ asked | fresh missing _ _ _ asked => simp [missing, asked]
  · intro asked
    cases (after {} run).answers_ask request with
    | hit _ _ _ unasked =>
      rw [unasked] at asked
      cases asked
    | failure _ failed answer => rw [answer, failed, Except.map]
    | fresh _ succeeded answer => rw [answer, succeeded, Except.map]
  · -- A filled slot is answered from, and a request that is answered so changes nothing.
    intro artifact found
    cases (after {} run).answers_ask request with
    | hit found' answer same =>
      rw [found] at found'
      cases found'
      exact ⟨answer, same⟩
    | failure missing | fresh missing =>
      rw [found] at missing
      cases missing
  · -- Only the writer gives an error, and then nothing is filled.
    intro error failed
    cases (after {} run).answers_ask request with
    | failure _ writes answer same =>
      rw [failed] at answer
      cases answer
      exact ⟨writes, same⟩
    | hit _ answer | fresh _ _ answer =>
      rw [failed] at answer
      cases answer
  · exact fun handle => Option.isSome_iff_exists

end Shading.Conversions

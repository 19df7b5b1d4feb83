import Mathlib.Data.Set.Card
import Shading.Proofs.Store.Calls

/-! Runs of a store: calls are answered with the program of the first one for their key. -/

namespace Shading

/-- A store, and the files that it reads. -/
structure Library where
  store : Store
  files : FileSystem

namespace Library

/-- Something that happens to a library: a program is asked for, all are forgotten, or files change. -/
inductive Operation
  | call (call : StoreCall)
  | clear
  | provide (files : FileSystem)

/-- The library after an operation. -/
def step (library : Library) : Operation → Library
  | .call call => { library with store := (call.ask library.store library.files).store }
  | .clear => { library with store := library.store.clear }
  | .provide files => { library with files }

/-- The library after a run. -/
def after (library : Library) (run : List Operation) : Library :=
  run.foldl step library

/-- A call returns a program. -/
def Returns (library : Library) (call : StoreCall) (handle : ProgramHandle) : Prop :=
  (call.ask library.store library.files).answer = .ok handle

/-- A call of a run returned a program, and nothing was forgotten from then on. -/
def Served (library : Library) (run : List Operation) (call : StoreCall) (handle : ProgramHandle) :
    Prop :=
  ∃ before later, run = before ++ .call call :: later ∧ .clear ∉ later ∧
    (library.after before).Returns call handle

/--
The call that a program comes from.

It is the first one of a run to return a program under its key since everything was forgotten.
-/
structure Origin (library : Library) (run before : List Operation) (call : StoreCall) (text : String)
    (handle : ProgramHandle) : Prop where
  occurs : ∃ later, run = before ++ .call call :: later ∧ .clear ∉ later
  first : ∀ other handle', library.Served before other handle' → ¬call.SameKey other
  loads : call.Loads library.store.config (library.after before).files text handle.program
  returns : (library.after before).Returns call handle

variable {library : Library} {run before between later : List Operation} {call other : StoreCall}
  {handle handle' : ProgramHandle} {key : StoreKey}

/-- A run without operations changes nothing. -/
@[simp] theorem after_nil (library : Library) : library.after [] = library := rfl

/-- The first operation of a run is followed by the others. -/
@[simp] theorem after_cons (library : Library) (operation : Operation) (run : List Operation) :
    library.after (operation :: run) = (library.step operation).after run := rfl

/-- A run that continues another one starts where that one ends. -/
@[simp] theorem after_append (library : Library) (run next : List Operation) :
    library.after (run ++ next) = (library.after run).after next :=
  -- The library is folded along the run.
  List.foldl_append

/-- Settings are not changed by a run. -/
@[simp] theorem config_after (library : Library) (run : List Operation) :
    (library.after run).store.config = library.store.config := by
  -- Operation by operation; only calls reach the store with more than its entries.
  induction run generalizing library with
  | nil => rfl
  | cons operation run ih =>
    rw [after_cons, ih]
    cases operation with
    | call call => exact library.store.config_ask library.files call
    | clear | provide => rfl

/-- No number is taken back by a run. -/
theorem made_le_after (library : Library) (run : List Operation) :
    library.store.made ≤ (library.after run).store.made := by
  -- Operation by operation; forgetting keeps the count of what was made.
  induction run generalizing library with
  | nil => exact Nat.le_refl _
  | cons operation run ih =>
    refine Nat.le_trans ?_ (ih (library.step operation))
    cases operation with
    | call call => exact library.store.made_le_ask library.files call
    | clear | provide => exact Nat.le_refl _

/-- A run keeps a store sound. -/
theorem sound_after (sound : library.store.Sound) (run : List Operation) :
    (library.after run).store.Sound := by
  -- Forgetting leaves nothing that could go wrong, and calls keep the store sound.
  induction run generalizing library with
  | nil => exact sound
  | cons operation run ih =>
    apply ih
    cases operation with
    | call call => exact sound.ask library.files call
    | clear => exact Store.sound_of_entries_eq_nil rfl
    | provide => exact sound

/-- What is kept stays kept as long as nothing is forgotten. -/
theorem find?_after_of_find? (found : library.store.find? key = some handle)
    (uncleared : .clear ∉ run) : (library.after run).store.find? key = some handle := by
  -- Calls add entries, and only forgetting takes them away.
  induction run generalizing library with
  | nil => exact found
  | cons operation run ih =>
    obtain ⟨differs, uncleared⟩ := List.ne_and_not_mem_of_not_mem_cons uncleared
    refine ih ?_ uncleared
    cases operation with
    | call call => exact Store.find?_ask_of_find? found call
    | clear => exact absurd rfl differs
    | provide => exact found

/-- What is kept after a run was kept before it and not forgotten, or has a number that is new. -/
theorem find?_after_cases (found : (library.after run).store.find? key = some handle) :
    library.store.find? key = some handle ∧ .clear ∉ run ∨ library.store.made ≤ handle.number := by
  -- From the end to the front: an entry was made by the operation, or is as old as what it found.
  induction run generalizing library with
  | nil => exact .inl ⟨found, List.not_mem_nil⟩
  | cons operation run ih =>
    rcases ih found with ⟨kept, uncleared⟩ | new
    · cases operation with
      | call call =>
        rcases Store.find?_ask_cases kept with earlier | ⟨-, -, number, -⟩
        · exact .inl ⟨earlier, by simpa using uncleared⟩
        · exact .inr (Nat.le_of_eq number.symm)
      | clear => cases kept
      | provide => exact .inl ⟨kept, by simpa using uncleared⟩
    · -- Numbers only grow, so that a new one is new for the longer run as well.
      exact .inr (Nat.le_trans (made_le_after library [operation]) new)

/-- A program that was returned is kept under the key of the call as long as nothing is forgotten. -/
theorem Served.find? (served : library.Served run call handle) :
    (library.after run).store.find? call.key = some handle := by
  -- The program is kept when it is returned, and kept on by what follows.
  obtain ⟨before, later, rfl, uncleared, returned⟩ := served
  rw [after_append, after_cons]
  exact find?_after_of_find? (Store.find?_ask_of_answer returned) uncleared

/-- A call that returns a program is one of those that returned it. -/
theorem Returns.served (returned : (library.after run).Returns call handle) :
    library.Served (run ++ [.call call]) call handle :=
  -- Nothing follows the call.
  ⟨run, [], rfl, List.not_mem_nil, returned⟩

/-- What happens next leaves the origin of a program as it is, unless everything is forgotten. -/
theorem Origin.next {text : String} (origin : library.Origin run before call text handle)
    {operation : Operation} (differs : operation ≠ .clear) :
    library.Origin (run ++ [operation]) before call text handle := by
  -- Only forgetting everything ends what was before.
  obtain ⟨later, rfl, uncleared⟩ := origin.occurs
  refine { origin with occurs := ⟨later ++ [operation], by simp, ?_⟩ }
  simpa [uncleared] using differs.symm

/-- Every program that is kept comes from a call of the run. -/
theorem exists_origin (empty : library.store.entries = [])
    (found : (library.after run).store.find? key = some handle) :
    ∃ before call text, library.Origin run before call text handle ∧ call.key = key := by
  -- The last operation either made the program or left it as it was kept before.
  induction run using List.reverseRecOn with
  | nil => simp [Store.find?, empty] at found
  | append_singleton run operation ih =>
    rw [after_append] at found
    cases operation with
    | call call =>
      rcases Store.find?_ask_cases found with kept | ⟨missing, rfl, -, returned, text, loads⟩
      · obtain ⟨before, origin, text, comes, same⟩ := ih kept
        exact ⟨before, origin, text, comes.next (by simp), same⟩
      · refine ⟨run, call, text, ⟨⟨[], rfl, List.not_mem_nil⟩, ?_, ?_, returned⟩, rfl⟩
        · -- A call that returned a program under the key would have left it there.
          intro other handle' served same
          have kept := served.find?
          rw [← StoreCall.sameKey_iff.mp same, missing] at kept
          cases kept
        · rwa [config_after] at loads
    | clear => cases found
    | provide files =>
      obtain ⟨before, origin, text, comes, same⟩ := ih found
      exact ⟨before, origin, text, comes.next (by simp), same⟩

/-- A call that was an origin has returned its program since everything was forgotten. -/
theorem Origin.served {text : String} (origin : library.Origin run before call text handle) :
    library.Served run call handle := by
  -- An origin returned its program when it was called.
  obtain ⟨later, splits, uncleared⟩ := origin.occurs
  exact ⟨before, later, splits, uncleared, origin.returns⟩

/-- The keys in use are those under which a program was returned since everything was forgotten. -/
theorem mem_keys_after (empty : library.store.entries = []) :
    key ∈ (library.after run).store.entries.map (·.1) ↔
      ∃ call handle, library.Served run call handle ∧ call.key = key := by
  -- What is kept has an origin, and what was returned is kept.
  rw [Store.mem_keys_iff]
  constructor
  · rintro ⟨handle, found⟩
    obtain ⟨before, call, text, origin, same⟩ := exists_origin empty found
    exact ⟨call, handle, origin.served, same⟩
  · rintro ⟨call, handle, served, rfl⟩
    exact ⟨handle, served.find?⟩

/-- A library has a program for each key under which one was returned since everything was forgotten. -/
theorem size_after (empty : library.store.entries = []) (run : List Operation) :
    {key | ∃ call handle, library.Served run call handle ∧ StoreCall.key call = key}.encard =
      (library.after run).store.size := by
  have keys : {key | ∃ call handle, library.Served run call handle ∧ StoreCall.key call = key} =
      ((library.after run).store.entries.map (·.1)).toFinset := by
    ext key
    rw [List.coe_toFinset]
    exact (mem_keys_after empty).symm
  -- No key is in use twice, so that there are as many keys as entries.
  have nodup := (sound_after (Store.sound_of_entries_eq_nil empty) run).nodup
  rw [keys, Set.encard_coe_eq_coe_finsetCard, List.toFinset_card_of_nodup nodup, List.length_map]
  rfl

/-- A call that fails leaves no trace. -/
theorem step_of_error {error : ShaderError}
    (failed : (call.ask library.store library.files).answer = .error error) :
    library.step (.call call) = library := by
  -- The store is the one before the call.
  rw [step, (Store.ask_of_error failed).1]

/-- Programs are returned again as long as nothing is forgotten, and only under their own key. -/
theorem returns_same_iff (sound : library.store.Sound)
    (returned : (library.after before).Returns call handle)
    (returned' : (library.after (before ++ .call call :: between)).Returns other handle') :
    (call.SameKey other ∧ .clear ∉ between → handle' = handle) ∧
      (¬(call.SameKey other ∧ .clear ∉ between) → handle'.number ≠ handle.number) := by
  -- The first call leaves its program, and what happens next ends with the second call.
  let middle := library.after (before ++ [.call call])
  have kept : middle.store.find? call.key = some handle := returned.served.find?
  have kept' : (middle.after (between ++ [.call other])).store.find? other.key = some handle' := by
    have := returned'.served.find?
    rwa [show before ++ Operation.call call :: between ++ [.call other] =
      (before ++ [.call call]) ++ (between ++ [.call other]) by simp, after_append] at this
  have soundMiddle : middle.store.Sound := sound_after sound _
  constructor
  · rintro ⟨same, uncleared⟩
    have again : (middle.after (between ++ [.call other])).store.find? call.key = some handle :=
      find?_after_of_find? kept (by simpa using uncleared)
    rw [StoreCall.sameKey_iff.mp same, kept'] at again
    exact Option.some.inj again
  · -- A program of the same number was kept all the time, and so under the same key.
    intro apart sameNumber
    rcases find?_after_cases kept' with ⟨earlier, uncleared⟩ | new
    · refine apart ⟨StoreCall.sameKey_iff.mpr ?_, fun cleared => uncleared (by simp [cleared])⟩
      exact soundMiddle.distinct kept earlier sameNumber.symm
    · have := soundMiddle.below kept
      omega

/--
A store keeps the first program under each key until everything is forgotten.

A call that fails changes nothing.
A call that succeeds returns the program that the first successful call for its key was given.
It returns this very program to all calls for the key until everything is forgotten, and to no others.
There are as many programs as keys under which one was returned since everything was forgotten.
-/
theorem answers_by_key (config : Config) (files : FileSystem) (run : List Operation)
    (call : StoreCall) :
    let start : Library := ⟨{ config }, files⟩
    let reached := start.after run
    (∀ error, (call.ask reached.store reached.files).answer = .error error →
      reached.step (.call call) = reached) ∧
    (∀ handle, reached.Returns call handle →
      (∃ before origin text,
        start.Origin (run ++ [.call call]) before origin text handle ∧ origin.SameKey call) ∧
      ∀ between other handle', (start.after (run ++ .call call :: between)).Returns other handle' →
        (call.SameKey other ∧ .clear ∉ between → handle' = handle) ∧
        (¬(call.SameKey other ∧ .clear ∉ between) → handle'.number ≠ handle.number)) ∧
    {key | ∃ call handle, start.Served run call handle ∧ StoreCall.key call = key}.encard =
      reached.store.size := by
  intro start reached
  -- One part each: failures, the origin of what is returned, its identity, and the size.
  refine ⟨fun error failed => step_of_error failed, fun handle returned => ⟨?_, ?_⟩, ?_⟩
  · obtain ⟨before, origin, text, comes, same⟩ := exists_origin rfl returned.served.find?
    exact ⟨before, origin, text, comes, StoreCall.sameKey_iff.mpr same⟩
  · intro between other handle' returned'
    exact returns_same_iff (Store.sound_of_entries_eq_nil rfl) returned returned'
  · exact size_after rfl run

/-- Another spelling and another text give the same program, until everything is forgotten. -/
theorem answers_by_key_spellings :
    let start : Library := ⟨{}, {}⟩
    let spelt := StoreCall.parseSource "dir//a" "vertex \x7b\x7d fragment \x7b\x7d" .empty
    let broken := StoreCall.parseSource "dir/a" "vertex" .empty
    ∃ handle again later, start.Returns spelt handle ∧
      (start.after [.call spelt, .provide {}]).Returns broken again ∧
      (start.after [.call spelt, .clear]).Returns spelt later ∧
      again = handle ∧ later.number ≠ handle.number := by
  intro start spelt broken
  let program : Program := { Program.empty "dir//a" .empty with vertex := some [], fragment := some [] }
  have returned : start.Returns spelt ⟨0, program⟩ := rfl
  have again : (start.after [.call spelt, .provide {}]).Returns broken ⟨0, program⟩ := rfl
  have later : (start.after [.call spelt, .clear]).Returns spelt ⟨1, program⟩ := rfl
  -- The key of both spellings is one, and it is forgotten in between for the last call.
  have kept := ((answers_by_key {} {} [] spelt).2.1 _ returned).2
  refine ⟨_, _, _, returned, again, later, (kept _ _ _ again).1 ⟨⟨by decide, fun _ => rfl⟩, by simp⟩, ?_⟩
  exact (kept _ _ _ later).2 fun apart => apart.2 (by simp)

end Library

end Shading

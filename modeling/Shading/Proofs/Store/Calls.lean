import Shading.Proofs.Defines.Canonical
import Shading.Store.Basic

/-! One call to a store: what it answers, and what is kept after it. -/

namespace Shading

/-- A request to a store for a program: that of a file, or that of a text under a name. -/
inductive StoreCall
  | get (path : String) (defines : Defines)
  | parseSource (name source : String) (defines : Defines)

namespace StoreCall

/-- The path of a file as it is spelt, or the name of a text. -/
def name : StoreCall → String
  | get path _ => path
  | parseSource name _ _ => name

/-- The define set that a program is asked for under. -/
def defines : StoreCall → Defines
  | get _ defines | parseSource _ _ defines => defines

/-- What the program of a call is kept under. -/
def key (call : StoreCall) : StoreKey :=
  .ofPath call.name call.defines

/-- Two calls are for one program: their paths have the same parts, and their defines the same values. -/
def SameKey (call other : StoreCall) : Prop :=
  Path.components call.name = Path.components other.name ∧
    ∀ key, call.defines.get? key = other.defines.get? key

/-- The text that a call reads, where it has to read one. -/
def text (config : Config) (files : FileSystem) : StoreCall → Except ReadError String
  | get path _ => files.read (config.resourcePath path)
  | parseSource _ source _ => .ok source

/-- A call reads a text, and the text is a program under the spelling and the defines of the call. -/
structure Loads (config : Config) (files : FileSystem) (call : StoreCall) (text : String)
    (program : Program) : Prop where
  read : call.text config files = .ok text
  parsed : Program.parse call.name call.defines text = .ok program

/-- The answer of a store to a call. -/
def ask (store : Store) (files : FileSystem) : StoreCall → Store.Reply
  | get path defines => store.get files path defines
  | parseSource name source defines => store.parseSource name source defines

/-- Calls are for one program exactly when their programs are kept under the same key. -/
theorem sameKey_iff {call other : StoreCall} : call.SameKey other ↔ call.key = other.key := by
  unfold SameKey key StoreKey.ofPath
  rw [StoreKey.mk.injEq]
  -- Define sets are kept sorted, so that they are the same when their values are.
  constructor
  · rintro ⟨parts, values⟩
    exact ⟨parts, Defines.ext_get? values⟩
  · rintro ⟨parts, same⟩
    exact ⟨parts, fun _ => by rw [same]⟩

end StoreCall

namespace Store

variable {store : Store} {files : FileSystem} {key key' : StoreKey} {handle handle' : ProgramHandle}

/-- A program that is made is kept under its key, in front of all others. -/
theorem find?_keep (program : Program) :
    (store.keep key program).2.find? key' =
      if key' = key then some ⟨store.made, program⟩ else store.find? key' := by
  -- The new entry is found first, and all others behind it.
  unfold find? keep
  by_cases same : key' = key
  · simp [same]
  · have differs : (key' == key) = false := by simpa using same
    simp [List.lookup_cons, same, differs]

/-- Nothing is kept after everything was forgotten. -/
@[simp] theorem find?_clear : store.clear.find? key = none := rfl

/-- A program is kept under every key that is in use, and under no other. -/
theorem mem_keys_iff : key ∈ store.entries.map (·.1) ↔ ∃ handle, store.find? key = some handle := by
  -- A key is found as soon as it is among the entries.
  rw [← Option.isSome_iff_exists, ← Option.ne_none_iff_isSome, find?, Ne, List.lookup_eq_none_iff]
  simp

/-- The answer to a call: what is kept, an error, or a program that is made and kept from now on. -/
inductive Answers (store : Store) (files : FileSystem) (call : StoreCall) (reply : Reply) : Prop
  | hit {handle : ProgramHandle} : store.find? call.key = some handle → reply.answer = .ok handle →
    reply.store = store → Answers store files call reply
  | failure {error} : store.find? call.key = none → reply.answer = .error error →
    reply.store = store → (∀ text program, ¬call.Loads store.config files text program) →
    Answers store files call reply
  | made {text program} : store.find? call.key = none →
    call.Loads store.config files text program → reply.answer = .ok ⟨store.made, program⟩ →
    reply.store = (store.keep call.key program).2 → Answers store files call reply

/-- Another wording of errors leaves what succeeds as it is. -/
theorem mapError_eq_ok {α ε ε' : Type} {result : Except ε α} {wording : ε → ε'} {value : α} :
    result.mapError wording = .ok value ↔ result = .ok value := by
  -- Only errors are worded anew.
  cases result with
  | error => exact ⟨nofun, nofun⟩
  | ok => exact ⟨fun same => by cases same; rfl, fun same => by cases same; rfl⟩

/-- A file gives a program when it can be read and its text is one. -/
theorem readProgram_eq_ok {config : Config} {path : String} {defines : Defines} {program : Program} :
    readProgram config files path defines = .ok program ↔
      ∃ text, files.read (config.resourcePath path) = .ok text ∧
        Program.parse path defines text = .ok program := by
  -- What cannot be read is never parsed.
  cases read : files.read (config.resourcePath path) with
  | error reason =>
    have failed : readProgram config files path defines =
        .error (.cannotRead (config.resourcePath path) reason) := by
      simp only [readProgram, read]
      rfl
    rw [failed]
    simp
  | ok text =>
    -- What was read is parsed, whose errors are reworded.
    have reading : readProgram config files path defines =
        (Program.parse path defines text).mapError (.parse path) := by
      simp only [readProgram, read]
      rfl
    rw [reading, mapError_eq_ok]
    simp

/-- A store answers with what it keeps, or makes what is missing and keeps it. -/
theorem answers_findOrMake (call : StoreCall) (make : Except ShaderError Program)
    (report : Except ShaderError Program → List LogEvent)
    (loads : ∀ program, make = .ok program ↔ ∃ text, call.Loads store.config files text program) :
    Answers store files call (store.findOrMake call.name call.defines make report) := by
  -- The store is looked through before anything is made.
  cases found : store.find? call.key with
  | some handle =>
    have same : store.find? (.ofPath call.name call.defines) = some handle := found
    simp only [findOrMake, same]
    exact .hit found rfl rfl
  | none =>
    have same : store.find? (.ofPath call.name call.defines) = none := found
    simp only [findOrMake, same]
    cases make with
    | error error =>
      -- Whatever the call could load would have been made.
      refine .failure found rfl rfl fun text program loaded => ?_
      cases (loads program).mpr ⟨text, loaded⟩
    | ok program =>
      obtain ⟨text, loaded⟩ := (loads program).mp rfl
      exact .made found loaded rfl rfl

/-- A store answers calls for files and calls for texts alike. -/
theorem answers_ask (store : Store) (files : FileSystem) (call : StoreCall) :
    Answers store files call (call.ask store files) := by
  -- The only difference is where the text comes from: it is read, or given by the call.
  cases call with
  | get path defines =>
    apply answers_findOrMake (.get path defines)
    intro program
    -- The file is read at the time of the call.
    rw [readProgram_eq_ok]
    constructor
    · rintro ⟨text, read, parsed⟩
      exact ⟨text, read, parsed⟩
    · rintro ⟨text, read, parsed⟩
      exact ⟨text, read, parsed⟩
  | parseSource name source defines =>
    apply answers_findOrMake (.parseSource name source defines)
      ((Program.parse name defines source).mapError (.parse name)) (fun _ => [])
    intro program
    rw [mapError_eq_ok]
    constructor
    · intro parsed
      exact ⟨source, rfl, parsed⟩
    · rintro ⟨text, read, parsed⟩
      cases read
      exact parsed

/-- Kept programs are told apart by their numbers, none of which is given out again. -/
structure Sound (store : Store) : Prop where
  below : ∀ {key handle}, store.find? key = some handle → handle.number < store.made
  distinct : ∀ {key key' handle handle'}, store.find? key = some handle →
    store.find? key' = some handle' → handle.number = handle'.number → key = key'
  nodup : (store.entries.map (·.1)).Nodup

/-- An empty store is sound. -/
theorem sound_of_entries_eq_nil (empty : store.entries = []) : store.Sound := by
  -- Nothing is found in it.
  constructor <;> simp [find?, empty]

/-- A program that is made has a number of its own. -/
theorem Sound.keep (sound : store.Sound) (missing : store.find? key = none) (program : Program) :
    (store.keep key program).2.Sound where
  below := by
    intro other handle found
    -- The number that is given out is the one to be counted up.
    have grows : (store.keep key program).2.made = store.made + 1 := rfl
    rw [find?_keep] at found
    split at found
    · cases found
      simp [grows]
    · have := sound.below found
      omega
  distinct := by
    intro other other' handle handle' found found' same
    rw [find?_keep] at found found'
    -- The new number is larger than all that were given out before.
    split at found <;> split at found'
    · rename_i isKey isKey'
      exact isKey.trans isKey'.symm
    · cases found
      have := sound.below found'
      simp only at same
      omega
    · cases found'
      have := sound.below found
      simp only at same
      omega
    · exact sound.distinct found found' same
  nodup := by
    -- The key is new, since a program is made only where none is kept.
    refine List.nodup_cons.mpr ⟨fun member => ?_, sound.nodup⟩
    obtain ⟨handle, found⟩ := mem_keys_iff.mp member
    rw [missing] at found
    cases found

/-- Calls keep a store sound. -/
theorem Sound.ask (sound : store.Sound) (files : FileSystem) (call : StoreCall) :
    (call.ask store files).store.Sound := by
  -- Only a program that is made changes the store.
  cases store.answers_ask files call with
  | hit _ _ same | failure _ _ same _ => rwa [same]
  | made missing _ _ kept =>
    rw [kept]
    exact sound.keep missing _

/-- Calls change no setting of a store. -/
theorem config_ask (store : Store) (files : FileSystem) (call : StoreCall) :
    (call.ask store files).store.config = store.config := by
  -- Only a program that is made changes the store, and settings are none of its entries.
  cases store.answers_ask files call with
  | hit _ _ same | failure _ _ same _ => rw [same]
  | made _ _ _ kept =>
    rw [kept]
    rfl

/-- Calls take no number back. -/
theorem made_le_ask (store : Store) (files : FileSystem) (call : StoreCall) :
    store.made ≤ (call.ask store files).store.made := by
  -- Only a program that is made takes a number, which is the next one.
  cases store.answers_ask files call with
  | hit _ _ same | failure _ _ same _ => exact Nat.le_of_eq (by rw [same])
  | made _ _ _ kept =>
    rw [kept]
    exact Nat.le_succ store.made

/-- What is kept stays kept under its key, whatever is asked for. -/
theorem find?_ask_of_find? (found : store.find? key = some handle) (call : StoreCall) :
    (call.ask store files).store.find? key = some handle := by
  cases store.answers_ask files call with
  | hit _ _ same | failure _ _ same _ => rwa [same]
  | made missing _ _ kept =>
    rw [kept, find?_keep, if_neg]
    · exact found
    · -- Nothing is made under a key that is in use.
      rintro rfl
      rw [missing] at found
      cases found

/-- A program that a call returns is kept under the key of the call. -/
theorem find?_ask_of_answer {call : StoreCall} (returned : (call.ask store files).answer = .ok handle) :
    (call.ask store files).store.find? call.key = some handle := by
  -- A call that fails returns nothing.
  cases store.answers_ask files call with
  | hit found answer same =>
    rw [returned] at answer
    cases answer
    rwa [same]
  | failure _ answer _ _ =>
    rw [returned] at answer
    cases answer
  | made _ _ answer kept =>
    rw [returned] at answer
    cases answer
    -- A program that was just made is kept under the key that it was made for.
    rw [kept, find?_keep, if_pos rfl]

/-- A call that fails changes nothing, and nothing is kept under its key. -/
theorem ask_of_error {call : StoreCall} {error : ShaderError}
    (failed : (call.ask store files).answer = .error error) :
    (call.ask store files).store = store ∧ store.find? call.key = none := by
  -- A call that fails is one that made nothing.
  cases store.answers_ask files call with
  | hit _ answer _ | made _ _ answer _ =>
    rw [failed] at answer
    cases answer
  | failure missing _ same _ => exact ⟨same, missing⟩

/-- What is kept after a call was kept before it, or was made by it. -/
theorem find?_ask_cases {call : StoreCall}
    (found : (call.ask store files).store.find? key = some handle) :
    store.find? key = some handle ∨
      store.find? call.key = none ∧ call.key = key ∧ handle.number = store.made ∧
        (call.ask store files).answer = .ok handle ∧
        ∃ text, call.Loads store.config files text handle.program := by
  cases store.answers_ask files call with
  | hit _ _ same | failure _ _ same _ =>
    -- Only a call that makes a program changes what is kept.
    rw [same] at found
    exact .inl found
  | @made text program missing loads answer kept =>
    rw [kept, find?_keep] at found
    -- Either the key is that of the call, or the entry was there before.
    split at found
    · rename_i isKey
      cases found
      exact .inr ⟨missing, isKey.symm, rfl, answer, text, loads⟩
    · exact .inl found

end Store

end Shading

import Shading.Config
import Shading.Log
import Shading.Program.Handle
import Shading.Store.Error

/-! Programs are read once for each path and define set. -/

namespace Shading

/-- What a program is kept under: the parts of its path, and its define set. -/
structure StoreKey where
  path : List Path.Component
  defines : Defines
deriving DecidableEq

/-- The key of a path as it is spelt; spellings with the same parts share a key. -/
def StoreKey.ofPath (path : String) (defines : Defines) : StoreKey :=
  ⟨Path.components path, defines⟩

/-- The programs that are kept, and how many were made so far. -/
structure Store where
  config : Config := {}
  entries : List (StoreKey × ProgramHandle) := []
  made : Nat := 0

namespace Store

/-- The program that is kept under a key. -/
def find? (store : Store) (key : StoreKey) : Option ProgramHandle :=
  store.entries.lookup key

/-- The number of programs that are kept. -/
def size (store : Store) : Nat :=
  store.entries.length

/-- No program is kept. -/
def isEmpty (store : Store) : Bool :=
  store.entries.isEmpty

/-- Forgets every program; numbers are not given out again. -/
def clear (store : Store) : Store :=
  { store with entries := [] }

/-- Keeps a program under a key, with the next number. -/
def keep (store : Store) (key : StoreKey) (program : Program) : ProgramHandle × Store :=
  let handle : ProgramHandle := ⟨store.made, program⟩
  (handle, { store with entries := (key, handle) :: store.entries, made := store.made + 1 })

/-- The outcome of asking for a program. -/
structure Reply where
  answer : Except ShaderError ProgramHandle
  store : Store
  events : List LogEvent

/-- The program under a key, made and kept when there is none; a failure leaves no trace. -/
@[inline] def findOrMake (store : Store) (name : String) (defines : Defines)
    (make : Except ShaderError Program) (report : Except ShaderError Program → List LogEvent) :
    Reply :=
  let key := StoreKey.ofPath name defines
  match store.find? key with
  | some handle => ⟨.ok handle, store, [.programHit name defines]⟩
  | none =>
    -- A miss is reported before anything that is reported while the program is made.
    let events := .programMiss name defines :: report make
    match make with
    | .error error => ⟨.error error, store, events⟩
    | .ok program =>
      let (handle, kept) := store.keep key program
      ⟨.ok handle, kept, events⟩

/-- Reads the program in a file, which is named by its path as it was given. -/
def readProgram (config : Config) (files : FileSystem) (path : String) (defines : Defines) :
    Except ShaderError Program := do
  let place := config.resourcePath path
  let source ← (files.read place).mapError (.cannotRead place)
  (Program.parse path defines source).mapError (.parse path)

/-- The reports of loading a file. -/
def loadEvents {α : Type} (place : String) : Except ShaderError α → List LogEvent
  | .ok _ => [.loading place, .loaded place]
  | .error _ => [.loading place, .loadFailed place]

/-- The program in a file of the directory of resources. -/
def get (store : Store) (files : FileSystem) (path : String) (defines : Defines) : Reply :=
  store.findOrMake path defines (readProgram store.config files path defines)
    (loadEvents (store.config.resourcePath path))

/-- The program that a text is, under a name that shares its keys with the paths of files. -/
def parseSource (store : Store) (name source : String) (defines : Defines) : Reply :=
  store.findOrMake name defines ((Program.parse name defines source).mapError (.parse name))
    fun _ => []

end Store

end Shading

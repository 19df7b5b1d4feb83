import Shading.Path

/-! Files, as far as reading a text from a path tells them apart. -/

namespace Shading

/-- Why no text can be read from a path. -/
inductive ReadError
  | notFound
  | notADirectory
  | isADirectory
  | nameTooLong
  | nulInName
  | notText
deriving DecidableEq

/-- The wording of a failure to read. -/
def ReadError.message : ReadError → String
  | notFound => "No such file or directory (os error 2)"
  | notADirectory => "Not a directory (os error 20)"
  | isADirectory => "Is a directory (os error 21)"
  | nameTooLong => "File name too long (os error 36)"
  | nulInName => "file name contained an unexpected NUL byte"
  | notText => "stream did not contain valid UTF-8"

/-- What a place holds. -/
inductive FileEntry
  | folder
  | file (content : ByteArray)

/-- A place, given by the names that lead to it from the root. -/
abbrev Place := List String

/-- The places that hold something, and the place from which relative paths start. -/
structure FileSystem where
  entries : List (Place × FileEntry) := []
  working : Place := []

namespace FileSystem

/-- What a place holds; the root and the places above the working one are folders. -/
def entry? (files : FileSystem) (place : Place) : Option FileEntry :=
  if place.isPrefixOf files.working then some .folder else files.entries.lookup place

/-- The longest name, in bytes. -/
def longestName : Nat := 255

/-- The longest path, in bytes. -/
def longestPath : Nat := 4095

/-- Goes from a place through the segments of a path; only folders can be passed. -/
def walk (files : FileSystem) : Place → List (List Char) → Except ReadError Place
  | place, [] => .ok place
  | place, segment :: rest =>
    -- Nothing stands between doubled slashes, but a slash at the end still asks for a folder.
    match files.entry? place with
    | none => .error .notFound
    | some (.file _) => .error .notADirectory
    | some .folder =>
      if segment = [] ∨ segment = ['.'] then walk files place rest
      else if segment = ['.', '.'] then walk files place.dropLast rest
      else
        let name := String.ofList segment
        if longestName < name.utf8ByteSize then .error .nameTooLong
        else if (files.entry? (place ++ [name])).isNone then .error .notFound
        else walk files (place ++ [name]) rest

/-- The place that a path leads to. -/
def find (files : FileSystem) (path : String) : Except ReadError Place :=
  if path.toList.contains '\x00' then .error .nulInName
  else if path.isEmpty then .error .notFound
  else if longestPath < path.utf8ByteSize then .error .nameTooLong
  else files.walk (if Path.isAbsolute path then [] else files.working) (Path.segments path)

/-- The text of the file at a path. -/
def read (files : FileSystem) (path : String) : Except ReadError String := do
  let place ← files.find path
  match files.entry? place with
  | none => .error .notFound
  | some .folder => .error .isADirectory
  | some (.file content) =>
    match String.fromUTF8? content with
    | some text => .ok text
    | none => .error .notText

/-- The place that a path names, whether or not it holds something. -/
def placeOf (files : FileSystem) (path : String) : Place :=
  let start := if Path.isAbsolute path then [] else files.working
  (Path.components path).foldl (fun place component =>
    match component with
    -- The root only occurs in front, where the start has been chosen by it.
    | .root | .current => place
    | .parent => place.dropLast
    | .name text => place ++ [text]) start

/-- Lets a place hold something, instead of what it held before. -/
def set (files : FileSystem) (place : Place) (entry : FileEntry) : FileSystem :=
  { files with entries := (place, entry) :: files.entries.filter (·.1 != place) }

/-- The places above a place, from the root on. -/
def above (place : Place) : List Place :=
  (List.range place.length).map place.take

/-- Writes a file, in folders that are made as needed. -/
def write (files : FileSystem) (path : String) (content : ByteArray) : FileSystem :=
  let place := files.placeOf path
  let withFolders := (above place).foldl (fun files place =>
    -- What exists on the way stays as it is, even if it is a file.
    if (files.entry? place).isNone then files.set place .folder else files) files
  match withFolders.entry? place with
  | some .folder => withFolders
  | _ => withFolders.set place (.file content)

/-- Removes a file; the folders that held it stay. -/
def remove (files : FileSystem) (path : String) : FileSystem :=
  let place := files.placeOf path
  match files.entry? place with
  | some (.file _) => { files with entries := files.entries.filter (·.1 != place) }
  | _ => files

end FileSystem

end Shading

/-! Paths of files. -/

namespace Shading.Path

/-- A part of a path. -/
inductive Component
  | root
  | current
  | parent
  | name (text : String)
deriving DecidableEq

/-- The texts between the slashes of a path. -/
def segments (path : String) : List (List Char) :=
  path.toList.splitOn '/'

/-- A path that starts at the root of all files. -/
def isAbsolute (path : String) : Bool :=
  path.toList.head? == some '/'

/-- The part that a text between slashes is; doubled slashes and dots in between are none. -/
def segment? (text : List Char) : Option Component :=
  if text = [] ∨ text = ['.'] then none
  else if text = ['.', '.'] then some .parent
  else some (.name (String.ofList text))

/-- The parts of a path, by which paths are compared. -/
def components (path : String) : List Component :=
  let start : List Component :=
    if isAbsolute path then [.root]
    -- A dot counts only at the front.
    else if (segments path).head? = some ['.'] then [.current]
    else []
  start ++ (segments path).filterMap segment?

/-- A path as seen from a directory; an absolute path is the same from everywhere. -/
def join (directory path : String) : String :=
  if isAbsolute path then path
  else if directory.isEmpty ∨ directory.toList.getLast? = some '/' then directory ++ path
  else directory ++ "/" ++ path

end Shading.Path

import Shading.FileSystem
import Shading.Program.Parse
import Shading.Writer

/-! Everything that can keep a source from being written out. -/

namespace Shading

/-- Why there is no shader for a source. -/
inductive ShaderError
  | cannotRead (path : String) (reason : ReadError)
  | parse (path : String) (error : ParseError)
  | write (error : WriteError)
deriving DecidableEq

namespace ShaderError

/-- The wording of an error about a shader. -/
def message : ShaderError → String
  | cannotRead path reason => "cannot read " ++ path ++ ": " ++ reason.message
  | parse path error => "cannot parse " ++ path ++ ": " ++ error.message
  | write error => "cannot write shader: " ++ error.message

/-- The wordings of the errors behind an error, from the outside in. -/
def causes : ShaderError → List String
  | cannotRead _ _ => []
  | parse _ error => error.message :: error.causes
  | write error => [error.message]

end ShaderError

end Shading

import Shading.FileSystem
import Shading.Glsl.Writer
import Shading.Json.Parser
import Shading.Json.Printer

/-! Settings, which are read from JSON. -/

namespace Shading

/-- Why no settings can be read. -/
inductive ConfigError
  | cannotRead (path : String) (reason : ReadError)
  /-- A text that gives no settings; the reason is the JSON library's own text and is left out. -/
  | malformed
deriving DecidableEq

/-- The wording of a failure to read settings, for malformed ones without the reason at its end. -/
def ConfigError.message : ConfigError → String
  | cannotRead path reason => "cannot read configuration " ++ path ++ ": " ++ reason.message
  | malformed => "malformed configuration"

/-- Settings, each with the value it has when it is left out. -/
structure Config where
  /-- The directory that paths of sources start from. -/
  resourceRoot : String := "."
  glslVersion : UInt16 := 330
  glslProfile : Option String := some "core"
  /-- Written shaders are reported line by line. -/
  logGeneratedSource : Bool := true
deriving DecidableEq, Inhabited

namespace Config

/-- The names of the settings in JSON, in their order. -/
def fieldNames : List String :=
  ["resource_root", "glsl_version", "glsl_profile", "log_generated_source"]

/-- The settings that a JSON value gives. -/
def ofJson? (json : Json) : Option Config := do
  let absent : Config := {}
  let fields ← json.fields? fieldNames
  -- A field that is left out gets the value that it has in settings of which nothing is given.
  let root ← Json.orElse? (fields.lookup "resource_root") (some absent.resourceRoot) Json.text?
  let version ← Json.orElse? (fields.lookup "glsl_version") (some absent.glslVersion)
    fun value => (value.below? UInt16.size).map UInt16.ofNat
  let profile ← Json.orElse? (fields.lookup "glsl_profile") (some absent.glslProfile)
    (Json.nullable? Json.text?)
  let log ← Json.orElse? (fields.lookup "log_generated_source") (some absent.logGeneratedSource)
    Json.bool?
  return ⟨root, version, profile, log⟩

/-- The JSON value of settings. -/
def toJson (config : Config) : Json :=
  .record [
    ("resource_root", .ofText config.resourceRoot),
    ("glsl_version", .natural config.glslVersion.toNat),
    ("glsl_profile", (config.glslProfile.map Json.ofText).getD .null),
    ("log_generated_source", .bool config.logGeneratedSource)]

/-- The settings that a JSON text gives. -/
def ofText (text : String) : Except ConfigError Config :=
  match (Json.parse? text).bind ofJson? with
  | some config => .ok config
  | none => .error .malformed

/-- The settings in a file. -/
def load (files : FileSystem) (path : String) : Except ConfigError Config :=
  match files.read path with
  | .ok text => ofText text
  | .error reason => .error (.cannotRead path reason)

/-- The path of a resource, which starts from the directory of resources. -/
def resourcePath (config : Config) (path : String) : String :=
  Path.join config.resourceRoot path

/-- The version of GLSL that is written. -/
def version (config : Config) : Glsl.Version :=
  ⟨config.glslVersion.toNat, config.glslProfile⟩

end Config

/-- The JSON value of a define set, an object of its keys in order. -/
def Defines.toJson (defines : Defines) : Json :=
  .record (defines.entries.map fun (key, value) => (key, .ofText value))

/-- The define set that a JSON object gives, in which the last value of a key counts. -/
def Defines.ofJson? (json : Json) : Option Defines := do
  let members ← json.members?
  let pairs ← members.mapM fun (key, value) => value.text?.map fun value => (key, value)
  return .ofList pairs

end Shading

import Shading.Conversions
import Shading.Material.Basic
import Shading.Store.Basic

/-! Making materials: a source is read, written out and put on the device. -/

namespace Shading

/-- Why a material gets no program. -/
inductive MaterialError
  | shader (error : ShaderError)
  | device (reason : String)
deriving DecidableEq

namespace MaterialError

/-- The wording of an error about a material. -/
def message : MaterialError → String
  | shader error => "shader error: " ++ error.message
  | device reason => "device error: " ++ reason

/-- The wordings of the errors behind an error, from the outside in. -/
def causes : MaterialError → List String
  | shader error => error.message :: error.causes
  | device _ => []

end MaterialError

/-- What materials are made with: programs that were read, those that were written, and a writer. -/
structure Factory where
  store : Store
  conversions : Conversions := {}
  writer : Writer
  /-- Written shaders are reported line by line. -/
  annotated : Bool

namespace Factory

/-- A factory that has read nothing yet. -/
def withWriter (config : Config) (writer : Writer) : Factory where
  store := { config }
  writer
  annotated := config.logGeneratedSource

/-- A factory that writes GLSL. -/
def ofConfig (config : Config) : Factory :=
  withWriter config (Glsl.writer config.version)

/-- What is reported of a new factory. -/
def opening (factory : Factory) : List LogEvent :=
  [.factory factory.writer.backend]

/-- Forgets every program that was read. -/
def clear (factory : Factory) : Factory :=
  { factory with store := factory.store.clear }

/-- The program that a text is, kept among those that were read. -/
def parseSource (factory : Factory) (name source : String) (defines : Defines) :
    Store.Reply × Factory :=
  let reply := factory.store.parseSource name source defines
  (reply, { factory with store := reply.store })

/-- The outcome of asking for a material. -/
structure Reply (Answer : Type) where
  answer : Answer
  factory : Factory
  device : Device
  /-- The writer had to be asked. -/
  written : Bool
  events : List LogEvent

/-- Puts a written program on the device for a material of its own. -/
def place (params : MaterialParams) (device : Device) (converted : Converted) :
    Except MaterialError Material × Device :=
  let (created, asked) := device.create converted
  (match created with
    | .error reason => .error (.device reason)
    | .ok program => .ok { params, program, table := converted.uniforms }, asked)

/-- A material with a program, or the reason why there is none. -/
def tryCreate (factory : Factory) (files : FileSystem) (device : Device)
    (params : MaterialParams) : Reply (Except MaterialError Material) :=
  let found := factory.store.get files params.path params.defines
  let read := { factory with store := found.store }
  -- What was read stays in the store, whatever comes of the request afterwards.
  match found.answer with
  | .error error => ⟨.error (.shader error), read, device, false, found.events⟩
  | .ok handle =>
    let conversion := read.conversions.convert read.writer read.annotated handle
    let converted := { read with conversions := conversion.conversions }
    let events := found.events ++ conversion.events
    match conversion.answer with
    | .error error =>
      ⟨.error (.shader (.write error)), converted, device, conversion.written, events⟩
    | .ok artifact =>
      let (material, asked) := place params device artifact.converted
      ⟨material, converted, asked, conversion.written, events⟩

/-- A material in any case; without a program, and with a report, where none could be built. -/
def create (factory : Factory) (files : FileSystem) (device : Device)
    (params : MaterialParams) : Reply Material :=
  let tried := factory.tryCreate files device params
  match tried.answer with
  | .ok material => { tried with answer := material }
  | .error error =>
    let failure := LogEvent.materialFailed params.path params.defines error.message
    { tried with answer := { params }, events := tried.events ++ [failure] }

end Factory

end Shading

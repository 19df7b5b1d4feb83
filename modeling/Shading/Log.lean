import Shading.Defines
import Shading.Text.Lines
import Shading.Writer

/-! What is reported while programs are loaded, converted and put to use. -/

namespace Shading

/-- How much a report matters, the most severe first. -/
inductive LogLevel
  | error | warn | info | debug | trace
deriving DecidableEq, Inhabited

namespace LogLevel

/-- The place of a level, counted from the most severe. -/
def rank : LogLevel → Nat
  | error => 1
  | warn => 2
  | info => 3
  | debug => 4
  | trace => 5

/-- The name of a level. -/
def name : LogLevel → String
  | error => "ERROR"
  | warn => "WARN"
  | info => "INFO"
  | debug => "DEBUG"
  | trace => "TRACE"

/-- The terminal colour of a level. -/
def colour : LogLevel → Nat
  | error => 31
  | warn => 33
  | info => 34
  | debug | trace => 90

end LogLevel

/-- The least severe level that is printed, or none when nothing is. -/
abbrev LogFilter := Option LogLevel

/-- A filter admits its level and all that are more severe. -/
def LogFilter.admits (filter : LogFilter) (level : LogLevel) : Bool :=
  match filter with
  | none => false
  | some least => level.rank ≤ least.rank

/-- Something that is reported. -/
inductive LogEvent
  | note (level : LogLevel) (text : String)
  | loading (path : String)
  | loaded (path : String)
  | loadFailed (path : String)
  | programHit (name : String) (defines : Defines)
  | programMiss (name : String) (defines : Defines)
  | conversionHit (name : String) (defines : Defines)
  | conversionMiss (name : String) (defines : Defines) (backend : Backend)
  | sourceHeading (stage : Stage)
  | sourceLine (number : Nat) (line : String)
  | factory (backend : Backend)
  | materialFailed (path : String) (defines : Defines) (reason : String)
deriving DecidableEq

namespace LogEvent

/-- How much an event matters. -/
def level : LogEvent → LogLevel
  | note level _ => level
  | loading _ | loaded _ | factory _ => .info
  | loadFailed _ | materialFailed _ _ _ => .error
  | programHit _ _ | programMiss _ _ | conversionHit _ _ | conversionMiss _ _ _ => .debug
  | sourceHeading _ | sourceLine _ _ => .debug

/-- The wording of an event; a load that ended tells the time it took. -/
def text (elapsed : String) : LogEvent → String
  | note _ text => text
  | loading path => "loading shader program " ++ path
  | loaded path => "loaded shader program " ++ path ++ ": " ++ elapsed
  | loadFailed path => "fail to load shader program " ++ path ++ ": " ++ elapsed
  | programHit name defines => "cache hit for " ++ name ++ " " ++ defines.text
  | programMiss name defines => "cache miss for " ++ name ++ " " ++ defines.text
  | conversionHit name defines => "conversion cache hit for " ++ name ++ " " ++ defines.text
  | conversionMiss name defines backend =>
    "conversion cache miss for " ++ name ++ " " ++ defines.text ++ ", writing " ++ backend.name
  | sourceHeading stage => stage.name ++ " shader:"
  | sourceLine number line => Text.rightAligned 3 number ++ ": " ++ line
  | factory backend => "material factory writing " ++ backend.name
  | materialFailed path defines reason =>
    "cannot create material for " ++ path ++ " " ++ defines.text ++ ": " ++ reason

/-- The printed form of an event: its time in grey, and its wording in the colour of its level. -/
def print (time elapsed : String) (event : LogEvent) : String :=
  "\x1b[90m" ++ time ++ " \x1b[" ++ event.level.colour.repr ++ "m> " ++ event.text elapsed ++
    "\x1b[0m"

end LogEvent

/-- The events that a filter lets through. -/
def LogFilter.select (filter : LogFilter) (events : List LogEvent) : List LogEvent :=
  events.filter fun event => filter.admits event.level

/-- The report of a written stage: a heading, and its lines with their numbers. -/
def annotations (stage : Stage) (source : String) : List LogEvent :=
  .sourceHeading stage ::
    (Text.lines source).mapIdx fun index line => .sourceLine (index + 1) line

end Shading

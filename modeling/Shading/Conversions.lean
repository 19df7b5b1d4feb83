import Shading.Log
import Shading.Program.Handle

/-! Programs are written out at most once each. -/

namespace Shading

/-- A written program, told apart by its number from others with the same texts. -/
structure Artifact where
  number : Nat
  converted : Converted
deriving DecidableEq, Inhabited

/-- The artifacts of the programs that were written out, by the numbers of the programs. -/
structure Conversions where
  slots : List (Nat × Artifact) := []

namespace Conversions

/-- The artifact of a program, if it was written out already. -/
def artifact? (conversions : Conversions) (handle : ProgramHandle) : Option Artifact :=
  conversions.slots.lookup handle.number

/-- A program is converted when it has an artifact. -/
def isConverted (conversions : Conversions) (handle : ProgramHandle) : Bool :=
  (conversions.artifact? handle).isSome

/-- Gives a program its artifact, under a number that no other artifact has. -/
def fill (conversions : Conversions) (handle : ProgramHandle) (converted : Converted) :
    Artifact × Conversions :=
  let artifact : Artifact := ⟨conversions.slots.length, converted⟩
  (artifact, ⟨(handle.number, artifact) :: conversions.slots⟩)

/-- The outcome of asking for an artifact. -/
structure Reply where
  answer : Except WriteError Artifact
  conversions : Conversions
  /-- The writer had to be asked. -/
  written : Bool
  events : List LogEvent

/-- The reports of a program that was just written, if they are wanted. -/
def report (annotated : Bool) (converted : Converted) : List LogEvent :=
  if annotated then
    annotations .vertex converted.vertex ++ annotations .fragment converted.fragment
  else []

/-- The artifact of a program, which is written out unless it has one; a failure is not kept. -/
def convert (conversions : Conversions) (writer : Writer) (annotated : Bool)
    (handle : ProgramHandle) : Reply :=
  let program := handle.program
  match conversions.artifact? handle with
  | some artifact =>
    ⟨.ok artifact, conversions, false, [.conversionHit program.name program.defines]⟩
  | none =>
    let miss := LogEvent.conversionMiss program.name program.defines writer.backend
    match writer.write program with
    | .error error => ⟨.error error, conversions, true, [miss]⟩
    | .ok converted =>
      let (artifact, filled) := conversions.fill handle converted
      ⟨.ok artifact, filled, true, miss :: report annotated converted⟩

end Conversions

end Shading

/-! Parts of a source that count only under some define sets. -/

namespace Shading

/-- A test for a define, met by its presence or by its absence. -/
structure Guard where
  key : String
  present : Bool
deriving DecidableEq

/-- A guard is met when the presence of its key is as it asks. -/
def Guard.holds (isDefined : String → Bool) (guard : Guard) : Bool :=
  isDefined guard.key == guard.present

/-- A part of a source, or a choice between two lists of parts. -/
inductive Guarded (α : Type)
  | always (value : α)
  | choice (guard : Guard) (yes no : List (Guarded α))

mutual

/-- What a part of a source contributes under the given defines. -/
def Guarded.select {α : Type} (isDefined : String → Bool) : Guarded α → List α
  | .always value => [value]
  | .choice guard yes no =>
    if guard.holds isDefined then selectAll isDefined yes else selectAll isDefined no

/-- What a list of parts contributes under the given defines, in order. -/
def selectAll {α : Type} (isDefined : String → Bool) : List (Guarded α) → List α
  | [] => []
  | part :: rest => part.select isDefined ++ selectAll isDefined rest

end

end Shading

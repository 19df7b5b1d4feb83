import Shading.Source.Statement

/-! The top-level parts of a source: declarations, vertex layouts and stages. -/

namespace Shading

/-- What a declared name is for. -/
inductive Role
  | uniform | varying | output
deriving DecidableEq, Inhabited

/-- A top-level part of a source; its lines are those that errors about it name. -/
inductive Item (Body : Type)
  | declaration (role : Role) (declared : Declaration) (line : Nat)
  | layout (named : List (String × Nat)) (line : Nat)
  | stage (which : Stage) (body : Body) (line : Nat)

/-- The same part with another form of body. -/
def Item.mapBody {α β : Type} (f : α → β) : Item α → Item β
  | .declaration role declared line => .declaration role declared line
  | .layout named line => .layout named line
  | .stage which body line => .stage which (f body) line

/-- A top-level part of a source before the defines are known. -/
abbrev SourceItem := Guarded (Item (List SourceStatement))

/-- The parts that count under the given defines, with the bodies that result. -/
def activeItems (isDefined : String → Bool) (items : List SourceItem) :
    List (Item (List Statement)) :=
  (selectAll isDefined items).map (·.mapBody (resolveAll isDefined))

end Shading

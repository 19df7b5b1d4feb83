import Shading.Program.Draft

/-! Declaring parts in order: what the first fault and the defines have to do with the outcome. -/

namespace Shading.Draft

/-- A fold goes along with a change of its state if each of its steps does. -/
theorem foldlM_moved {σ τ α ε : Type} {step : σ → α → Except ε σ} {step' : τ → α → Except ε τ}
    {move : σ → τ} (same : ∀ state value, step' (move state) value = (step state value).map move)
    (state : σ) (values : List α) :
    values.foldlM step' (move state) = (values.foldlM step state).map move := by
  induction values generalizing state with
  | nil => rfl
  | cons value rest ih =>
    rw [List.foldlM_cons, List.foldlM_cons, same]
    -- A fault ends both folds, and otherwise they go on from states that belong together.
    cases step state value with
    | error => rfl
    | ok next => exact ih next

/-- The same draft of a program under other defines. -/
def under (defines : Defines) (draft : Draft) : Draft :=
  { draft with program := { draft.program with defines } }

variable (draft : Draft) (defines : Defines)

@[simp] theorem under_hasLayout : (draft.under defines).hasLayout = draft.hasLayout := rfl

@[simp] theorem under_uniform? (name : String) :
    (draft.under defines).program.uniform? name = draft.program.uniform? name := rfl

@[simp] theorem under_isDeclared (name : String) :
    (draft.under defines).program.isDeclared name = draft.program.isDeclared name := rfl

@[simp] theorem under_stage? (stage : Stage) :
    (draft.under defines).program.stage? stage = draft.program.stage? stage := by
  -- There are two stages, and defines are no part of either.
  cases stage <;> rfl

/-- A name is declared under other defines as well. -/
theorem declareName_under (role : Role) (declared : Declaration) (line : Nat) :
    (draft.under defines).declareName role declared line =
      (draft.declareName role declared line).map (under defines) := by
  -- The tests look at names only.
  unfold declareName
  rw [under_uniform?, under_isDeclared]
  split
  · rfl
  · split
    · rfl
    · cases role <;> rfl

/-- A component is declared under other defines as well. -/
theorem declareComponent_under (named : String × Nat) :
    (draft.under defines).declareComponent named =
      (draft.declareComponent named).map (under defines) := by
  -- The tests look at names only.
  unfold declareComponent
  rw [under_isDeclared]
  split
  · rfl
  · split <;> rfl

/-- Components are declared under other defines as well. -/
theorem declareComponents_under (named : List (String × Nat)) :
    named.foldlM declareComponent (draft.under defines) =
      (named.foldlM declareComponent draft).map (under defines) :=
  -- Component by component.
  foldlM_moved (fun draft => draft.declareComponent_under defines) draft named

/-- A part is declared under other defines as well. -/
theorem declare_under (item : Item (List Statement)) :
    (draft.under defines).declare item = (draft.declare item).map (under defines) := by
  -- No rule for declarations looks at the defines.
  cases item with
  | declaration role declared line => exact declareName_under draft defines role declared line
  | layout named line =>
    simp only [declare, declareLayout, under_hasLayout, declareComponents_under]
    split
    · rfl
    · cases named.foldlM declareComponent draft <;> rfl
  -- A second body of a stage is refused, whatever the defines are.
  | stage which body line =>
    simp only [declare, declareStage, under_stage?]
    split
    · rfl
    · cases which <;> rfl

/-- Parts are declared under other defines as well. -/
theorem declareAll_under (items : List (Item (List Statement))) :
    (draft.under defines).declareAll items = (draft.declareAll items).map (under defines) :=
  -- Part by part.
  foldlM_moved (fun draft => draft.declare_under defines) draft items

/-- The first part at fault hides all parts after it. -/
theorem declareAll_append_error {items : List (Item (List Statement))} {fault : DeclarationError}
    (failed : draft.declareAll items = .error fault) (more : List (Item (List Statement))) :
    draft.declareAll (items ++ more) = .error fault := by
  -- The fold stops at the fault, and never comes to the parts behind it.
  unfold declareAll at failed ⊢
  rw [List.foldlM_append, failed]
  rfl

end Shading.Draft

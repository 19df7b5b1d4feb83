import Shading.Proofs.Language.Contents

/-! The statements of a body at every depth, in the order in which they are written. -/

namespace Shading

mutual

/-- A statement and those nested in it: each before what it holds, and a block before its alternative. -/
def Statement.preorder : Statement → List Statement
  | .declare declaration initial => [.declare declaration initial]
  | .assign target op value => [.assign target op value]
  | .evaluate expression => [.evaluate expression]
  | .ifThen condition yes => .ifThen condition yes :: preorderAll yes
  | .ifThenElse condition yes no =>
    .ifThenElse condition yes no :: (preorderAll yes ++ preorderAll no)
  | .discard => [.discard]
  | .leave => [.leave]

/-- The statements of a block and those nested in them. -/
def preorderAll : List Statement → List Statement
  | [] => []
  | statement :: rest => statement.preorder ++ preorderAll rest

end

/-- A block has at every depth what its statements have. -/
theorem mem_preorderAll {ss : List Statement} {t : Statement} :
    t ∈ preorderAll ss ↔ ∃ s ∈ ss, t ∈ s.preorder := by
  -- Along the block: what is listed of it is listed of one of its statements.
  induction ss with
  | nil => simp [preorderAll]
  | cons s ss ih => simp [preorderAll, ih]

/-- A stage that is missing has no statements. -/
theorem mem_preorderAll_getD {found : Option (List Statement)} {t : Statement} :
    t ∈ preorderAll (found.getD []) ↔ ∃ body, found = some body ∧ t ∈ preorderAll body := by
  -- The default is a stage without statements.
  cases found <;> simp [preorderAll]

/-- A statement of a stage of a program, at any depth. -/
def Program.Contains (program : Program) (t : Statement) : Prop :=
  ∃ stage body, program.stage? stage = some body ∧ t ∈ preorderAll body

variable {held assigned : Expr → Prop} {declared : Declaration → Prop}

/-- What a statement holds is of some kind at every depth. -/
theorem Statement.All.preorder {s : Statement} (all : s.All held assigned declared) :
    ∀ t ∈ s.preorder, t.All held assigned declared := by
  -- What is listed of a block is what is listed of its statements.
  have nested : ∀ {ss : List Statement},
      (∀ s ∈ ss, ∀ t ∈ s.preorder, t.All held assigned declared) →
      ∀ t ∈ preorderAll ss, t.All held assigned declared := by
    intro ss each t member
    obtain ⟨s, within, isNested⟩ := mem_preorderAll.mp member
    exact each s within t isNested
  induction all with
  | declare d => exact List.forall_mem_singleton.mpr (.declare d)
  | initialise d initial => exact List.forall_mem_singleton.mpr (.initialise d initial)
  | assign assignable target value =>
    exact List.forall_mem_singleton.mpr (.assign assignable target value)
  | evaluate e => exact List.forall_mem_singleton.mpr (.evaluate e)
  -- Only the two kinds of conditionals have statements inside.
  | ifThen condition each yes =>
    exact List.forall_mem_cons.mpr ⟨.ifThen condition each, nested yes⟩
  | ifThenElse condition eachYes eachNo yes no =>
    refine List.forall_mem_cons.mpr ⟨.ifThenElse condition eachYes eachNo, ?_⟩
    exact List.forall_mem_append.mpr ⟨nested yes, nested no⟩
  | discard => exact List.forall_mem_singleton.mpr .discard
  | leave => exact List.forall_mem_singleton.mpr .leave

/-- What a program holds is of some kind in all its statements. -/
theorem Program.All.contains {program : Program} (all : program.All held assigned declared)
    {t : Statement} (contained : program.Contains t) : t.All held assigned declared := by
  -- What is at some depth of a body is at some depth of one of its statements.
  obtain ⟨stage, body, found, member⟩ := contained
  obtain ⟨s, within, isNested⟩ := mem_preorderAll.mp member
  exact (all.stages stage body found s within).preorder t isNested

end Shading

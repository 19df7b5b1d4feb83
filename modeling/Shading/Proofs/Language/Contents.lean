import Shading.Proofs.Language.Validity
import Shading.Program.Draft

/-! What holds of all expressions and declarations of a source holds of those of its programs. -/

namespace Shading

variable {held held' assigned assigned' : Expr → Prop} {declared declared' : Declaration → Prop}

section Statements

variable (held assigned declared)

/-- A statement of a source whose expressions, targets and variables are all of some kind. -/
inductive SourceStatement.All : SourceStatement → Prop
  | declare {declaration} : declared declaration → All (.declare declaration none)
  | initialise {declaration initial} :
    declared declaration → held initial → All (.declare declaration (some initial))
  | assign {target op value} :
    assigned target → held target → held value → All (.assign target op value)
  | evaluate {e} : held e → All (.evaluate e)
  | ifThen {condition yes} : held condition → (∀ s ∈ yes, All s) → All (.ifThen condition yes)
  | ifThenElse {condition yes no} :
    held condition → (∀ s ∈ yes, All s) → (∀ s ∈ no, All s) → All (.ifThenElse condition yes no)
  | discard : All .discard
  | leave : All .leave
  | choice {guard yes no} :
    (∀ s ∈ yes, All s) → (∀ s ∈ no, All s) → All (.choice guard yes no)

/-- A statement whose expressions, targets and variables are all of some kind. -/
inductive Statement.All : Statement → Prop
  | declare {declaration} : declared declaration → All (.declare declaration none)
  | initialise {declaration initial} :
    declared declaration → held initial → All (.declare declaration (some initial))
  | assign {target op value} :
    assigned target → held target → held value → All (.assign target op value)
  | evaluate {e} : held e → All (.evaluate e)
  | ifThen {condition yes} : held condition → (∀ s ∈ yes, All s) → All (.ifThen condition yes)
  | ifThenElse {condition yes no} :
    held condition → (∀ s ∈ yes, All s) → (∀ s ∈ no, All s) → All (.ifThenElse condition yes no)
  | discard : All .discard
  | leave : All .leave

end Statements

/-- What is of one kind is of every wider kind. -/
theorem SourceStatement.All.imp {s : SourceStatement} (all : s.All held assigned declared)
    (wider : ∀ e, held e → held' e) (widerAssigned : ∀ e, assigned e → assigned' e)
    (widerDeclared : ∀ d, declared d → declared' d) :
    s.All held' assigned' declared' := by
  -- Along the statement, as the kinds of its parts only get wider.
  induction all with
  | declare d => exact .declare (widerDeclared _ d)
  | initialise d initial => exact .initialise (widerDeclared _ d) (wider _ initial)
  | assign assignable target value =>
    exact .assign (widerAssigned _ assignable) (wider _ target) (wider _ value)
  | evaluate e => exact .evaluate (wider _ e)
  | ifThen condition _ yes => exact .ifThen (wider _ condition) yes
  | ifThenElse condition _ _ yes no => exact .ifThenElse (wider _ condition) yes no
  | discard => exact .discard
  | leave => exact .leave
  | choice _ _ yes no => exact .choice yes no

/-- What is of one kind is of every wider kind. -/
theorem Statement.All.imp {s : Statement} (all : s.All held assigned declared)
    (wider : ∀ e, held e → held' e) (widerAssigned : ∀ e, assigned e → assigned' e)
    (widerDeclared : ∀ d, declared d → declared' d) :
    s.All held' assigned' declared' := by
  -- Along the statement, as the kinds of its parts only get wider.
  induction all with
  | declare d => exact .declare (widerDeclared _ d)
  | initialise d initial => exact .initialise (widerDeclared _ d) (wider _ initial)
  | assign assignable target value =>
    exact .assign (widerAssigned _ assignable) (wider _ target) (wider _ value)
  | evaluate e => exact .evaluate (wider _ e)
  | ifThen condition _ yes => exact .ifThen (wider _ condition) yes
  | ifThenElse condition _ _ yes no => exact .ifThenElse (wider _ condition) yes no
  | discard => exact .discard
  | leave => exact .leave

/-- The statements that stand for one of a source hold nothing that it does not. -/
theorem SourceStatement.All.resolve {s : SourceStatement} (all : s.All held assigned declared)
    (isDefined : String → Bool) : ∀ t ∈ s.resolve isDefined, t.All held assigned declared := by
  -- What stands for a list is what stands for its statements.
  have resolveAll : ∀ {ss : List SourceStatement},
      (∀ s ∈ ss, ∀ t ∈ s.resolve isDefined, t.All held assigned declared) →
      ∀ t ∈ Shading.resolveAll isDefined ss, t.All held assigned declared := by
    intro ss each t member
    obtain ⟨s, within, resolved⟩ := mem_resolveAll.mp member
    exact each s within t resolved
  -- Only a choice stands for a list; every other statement stands for itself.
  induction all with
  | declare d => exact List.forall_mem_singleton.mpr (.declare d)
  | initialise d initial => exact List.forall_mem_singleton.mpr (.initialise d initial)
  | assign assignable target value =>
    exact List.forall_mem_singleton.mpr (.assign assignable target value)
  | evaluate e => exact List.forall_mem_singleton.mpr (.evaluate e)
  | ifThen condition _ yes =>
    exact List.forall_mem_singleton.mpr (.ifThen condition (resolveAll yes))
  | ifThenElse condition _ _ yes no =>
    exact List.forall_mem_singleton.mpr (.ifThenElse condition (resolveAll yes) (resolveAll no))
  | discard => exact List.forall_mem_singleton.mpr .discard
  | leave => exact List.forall_mem_singleton.mpr .leave
  | choice _ _ yes no =>
    rw [SourceStatement.resolve]
    -- Either way it stands for the statements of one of its two lists.
    split
    · exact resolveAll yes
    · exact resolveAll no

/-- What a statement holds is of the kind that all it holds is of. -/
theorem Statement.Holds.all {e : Expr} {s : Statement} (holds : s.Holds e)
    (all : s.All held assigned declared) : held e := by
  -- The way to the expression decides which part of the statement holds it.
  -- The other ways in are not through a statement of this form.
  induction holds with
  | initial =>
    cases all with
    | initialise _ initial => exact initial
  | target =>
    cases all with
    | assign _ target _ => exact target
  | value =>
    cases all with
    | assign _ _ value => exact value
  | evaluated =>
    cases all with
    | evaluate e => exact e
  | condition =>
    cases all with
    | ifThen condition _ => exact condition
  -- Inside a conditional the way goes on through one of its statements.
  | inThen member _ ih =>
    cases all with
    | ifThen _ yes => exact ih (yes _ member)
  | chosen =>
    cases all with
    | ifThenElse condition _ _ => exact condition
  | inYes member _ ih =>
    cases all with
    | ifThenElse _ yes _ => exact ih (yes _ member)
  | inNo member _ ih =>
    cases all with
    | ifThenElse _ _ no => exact ih (no _ member)

/-- A top-level part whose declaration or body is of some kind. -/
def Item.All {Body : Type} (declared : Declaration → Prop) (body : Body → Prop) : Item Body → Prop
  | .declaration _ d _ => declared d
  | .layout _ _ => True
  | .stage _ statements _ => body statements

/-- A top-level part of a source whose expressions and declarations are all of some kind. -/
inductive SourceItem.All (held assigned : Expr → Prop) (declared : Declaration → Prop) :
    SourceItem → Prop
  | always {item} :
    item.All declared (fun body => ∀ s ∈ body, SourceStatement.All held assigned declared s) →
    All held assigned declared (.always item)
  | choice {guard yes no} :
    (∀ i ∈ yes, All held assigned declared i) → (∀ i ∈ no, All held assigned declared i) →
    All held assigned declared (.choice guard yes no)

/-- What is of one kind is of every wider kind. -/
theorem SourceItem.All.imp {i : SourceItem} (all : SourceItem.All held assigned declared i)
    (wider : ∀ e, held e → held' e) (widerAssigned : ∀ e, assigned e → assigned' e)
    (widerDeclared : ∀ d, declared d → declared' d) :
    SourceItem.All held' assigned' declared' i := by
  -- Only a stage has statements, and a declaration is of the wider kind itself.
  induction all with
  | @always item itsAll =>
    refine .always ?_
    cases item with
    | declaration => exact widerDeclared _ itsAll
    | layout => trivial
    | stage => exact fun s member => (itsAll s member).imp wider widerAssigned widerDeclared
  | choice _ _ yes no => exact .choice yes no

/-- The parts that count hold nothing that the source does not. -/
theorem SourceItem.All.select {i : SourceItem} (all : SourceItem.All held assigned declared i)
    (isDefined : String → Bool) : ∀ item ∈ i.select isDefined,
      item.All declared fun body => ∀ s ∈ body, SourceStatement.All held assigned declared s := by
  induction all with
  | always item => exact List.forall_mem_singleton.mpr item
  | choice _ _ yes no =>
    rw [Guarded.select]
    -- One of the regions is left, whichever it is.
    split
    · intro item member
      obtain ⟨i, within, selected⟩ := mem_selectAll.mp member
      exact yes i within item selected
    · intro item member
      obtain ⟨i, within, selected⟩ := mem_selectAll.mp member
      exact no i within item selected

/-- The active parts hold nothing that the source does not. -/
theorem activeItems_all {is : List SourceItem}
    (all : ∀ i ∈ is, SourceItem.All held assigned declared i)
    (isDefined : String → Bool) : ∀ item ∈ activeItems isDefined is,
      item.All declared fun body => ∀ s ∈ body, Statement.All held assigned declared s := by
  intro item member
  obtain ⟨source, selected, rfl⟩ := List.mem_map.mp member
  obtain ⟨i, within, chosen⟩ := mem_selectAll.mp selected
  have itsAll := (all i within).select isDefined source chosen
  -- Of what is selected, only stages have something left to resolve.
  cases source with
  | declaration => exact itsAll
  | layout => trivial
  | stage which body line =>
    intro t resolved
    obtain ⟨s, inBody, stands⟩ := mem_resolveAll.mp resolved
    exact (itsAll s inBody).resolve isDefined t stands

/-- A program whose expressions and declarations are all of some kind. -/
structure Program.All (held assigned : Expr → Prop) (declared : Declaration → Prop)
    (program : Program) : Prop where
  uniforms : ∀ d ∈ program.uniforms, declared d
  varyings : ∀ d ∈ program.varyings, declared d
  outputs : ∀ d ∈ program.outputs, declared d
  stages : ∀ stage body, program.stage? stage = some body → ∀ s ∈ body, s.All held assigned declared

namespace Program.All

variable {program : Program}

/-- What a program mentions is part of what is of the kind of all its expressions. -/
theorem mentions (all : program.All held assigned declared) {e : Expr}
    (mentioned : program.Mentions e) :
    ∃ whole, held whole ∧ e.Within whole := by
  -- A mentioned expression is within one that a statement of a stage holds.
  obtain ⟨stage, body, s, whole, found, member, holds, within⟩ := mentioned
  exact ⟨whole, holds.all (all.stages stage body found s member), within⟩

/-- What is of one kind is of every wider kind. -/
theorem imp (all : program.All held assigned declared) (wider : ∀ e, held e → held' e)
    (widerAssigned : ∀ e, assigned e → assigned' e)
    (widerDeclared : ∀ d, declared d → declared' d) : program.All held' assigned' declared' where
  uniforms d member := widerDeclared d (all.uniforms d member)
  varyings d member := widerDeclared d (all.varyings d member)
  outputs d member := widerDeclared d (all.outputs d member)
  -- Bodies are dealt with statement by statement.
  stages stage body found s member :=
    (all.stages stage body found s member).imp wider widerAssigned widerDeclared

/-- Nothing is in an empty program. -/
theorem empty (name : String) (defines : Defines) :
    (Program.empty name defines).All held assigned declared := by
  -- There are no declarations and no stages.
  refine ⟨by simp [Program.empty], by simp [Program.empty], by simp [Program.empty], ?_⟩
  intro stage body found
  cases stage <;> cases found

end Program.All

namespace Draft

variable {draft next : Draft}

/-- A further declaration is of the kind of all others. -/
theorem addDeclaration_all (all : draft.program.All held assigned declared) {d : Declaration}
    (new : declared d) (role : Role) : (draft.addDeclaration role d).program.All held assigned declared := by
  obtain ⟨uniforms, varyings, outputs, stages⟩ := all
  -- The declaration is added to those of its role, behind all others.
  have declarations : ∀ {ds : List Declaration}, (∀ d ∈ ds, declared d) →
      ∀ d' ∈ ds ++ [d], declared d' := by
    intro ds each d' member
    rcases List.mem_append.mp member with member | last
    · exact each d' member
    · exact List.mem_singleton.mp last ▸ new
  -- The other roles keep what they had.
  cases role with
  | uniform => exact ⟨declarations uniforms, varyings, outputs, stages⟩
  | varying => exact ⟨uniforms, declarations varyings, outputs, stages⟩
  | output => exact ⟨uniforms, varyings, declarations outputs, stages⟩

/-- What every step of a fold keeps holds at its end, if it held at the start. -/
theorem foldlM_keeps {α ε : Type} {step : Draft → α → Except ε Draft} {P : Draft → Prop}
    {values : List α} (done : values.foldlM step draft = .ok next) (first : P draft)
    (kept : ∀ value ∈ values, ∀ {draft next}, step draft value = .ok next → P draft → P next) :
    P next := by
  -- By the values that are left, with the draft as it is after the steps so far.
  induction values generalizing draft with
  | nil =>
    cases done
    exact first
  | cons value rest ih =>
    obtain ⟨keptHere, keptBehind⟩ := List.forall_mem_cons.mp kept
    rw [List.foldlM_cons] at done
    -- A step that fails would have ended the fold.
    cases stepped : step draft value with
    | error fault =>
      rw [stepped] at done
      cases done
    | ok reached =>
      rw [stepped] at done
      exact ih done (keptHere stepped first) keptBehind

/-- Components of the layout are neither expressions nor declarations. -/
theorem declareComponents_all {named : List (String × Nat)}
    (done : named.foldlM declareComponent draft = .ok next)
    (all : draft.program.All held assigned declared) : next.program.All held assigned declared := by
  refine foldlM_keeps (P := fun draft => draft.program.All held assigned declared) done all ?_
  intro component _ draft next filled all
  -- A component is added to the layout alone, or refused.
  unfold declareComponent at filled
  split at filled
  · cases filled
  · split at filled
    · cases filled
    · cases filled
      exact ⟨all.uniforms, all.varyings, all.outputs, all.stages⟩

/-- A part that is declared adds what it holds. -/
theorem declare_all {item : Item (List Statement)} (done : draft.declare item = .ok next)
    (all : draft.program.All held assigned declared)
    (new : item.All declared fun body => ∀ s ∈ body, Statement.All held assigned declared s) :
    next.program.All held assigned declared := by
  -- A fault leaves no draft, and each kind of part adds to its own component of the program.
  cases item with
  | declaration role d line =>
    simp only [declare, declareName] at done
    split at done
    · cases done
    · split at done
      · cases done
      · cases done
        exact addDeclaration_all all new role
  | layout named line =>
    simp only [declare, declareLayout] at done
    split at done
    · cases done
    · -- A layout adds its components one by one, none of which holds anything.
      cases filled : named.foldlM declareComponent draft with
      | error fault =>
        rw [filled] at done
        cases done
      | ok components =>
        rw [filled] at done
        cases done
        have kept := declareComponents_all filled all
        exact ⟨kept.uniforms, kept.varyings, kept.outputs, kept.stages⟩
  | stage which body line =>
    simp only [declare, declareStage] at done
    split at done
    · cases done
    · cases done
      obtain ⟨uniforms, varyings, outputs, stages⟩ := all
      -- The stage that is set has the new body.
      have bodies : ∀ stage other, (draft.setStage which body).program.stage? stage = some other →
          ∀ s ∈ other, s.All held assigned declared := by
        intro stage other found
        by_cases same : stage = which
        · subst same
          obtain rfl : body = other := by cases stage <;> exact Option.some.inj found
          exact new
        · -- The other stage keeps its body.
          refine stages stage other ?_
          cases which <;> cases stage <;> first
            | exact absurd rfl same
            | exact found
      cases which <;> exact ⟨uniforms, varyings, outputs, bodies⟩

/-- Parts that are declared make a program of what they hold. -/
theorem declareAll_all {items : List (Item (List Statement))} {filled : Draft}
    (done : draft.declareAll items = .ok filled) (all : draft.program.All held assigned declared)
    (new : ∀ item ∈ items,
      item.All declared fun body => ∀ s ∈ body, Statement.All held assigned declared s) :
    filled.program.All held assigned declared := by
  -- One part after the other, each of which adds what it holds.
  refine foldlM_keeps (P := fun draft => draft.program.All held assigned declared) done all ?_
  intro item member draft next step all
  exact declare_all step all (new item member)

end Draft

end Shading

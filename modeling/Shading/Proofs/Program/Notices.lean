import Mathlib.Data.List.Induction
import Shading.Program.Draft

/-! What the parts of a source declare, and what is wrong with it in view of what stands before. -/

namespace Shading

/-- Something that a part of a source declares: a name, a layout or a stage. -/
inductive Notice
  | declaration (role : Role) (declared : Declaration) (line : Nat)
  | layout (line : Nat)
  | component (name : String) (line : Nat)
  | stage (which : Stage) (body : List Statement) (line : Nat)

/-- What a part of a source declares in its order; a layout stands before its components. -/
def Item.notices : Item (List Statement) → List Notice
  | .declaration role declared line => [.declaration role declared line]
  | .layout named line => .layout line :: named.map fun (name, line) => .component name line
  | .stage which body line => [.stage which body line]

namespace Notice

/-- The name that is declared, if there is one. -/
def name? : Notice → Option String
  | declaration _ declared _ => some declared.name
  | component name _ => some name
  | layout _ | stage _ _ _ => none

/-- The declaration in a role. -/
def declared? (role : Role) : Notice → Option Declaration
  | declaration other declared _ => if other = role then some declared else none
  | layout _ | component _ _ | stage _ _ _ => none

/-- The component that a name in a layout stands for. -/
def component? : Notice → Option VertexComponent
  | component name _ => VertexComponent.ofName? name
  | declaration _ _ _ | layout _ | stage _ _ _ => none

/-- The body of a stage. -/
def body? (stage : Stage) : Notice → Option (List Statement)
  | .stage other body _ => if other = stage then some body else none
  | declaration _ _ _ | layout _ | component _ _ => none

/-- A vertex layout starts here. -/
def isLayout : Notice → Bool
  | layout _ => true
  | declaration _ _ _ | component _ _ | stage _ _ _ => false

/-- A stage of this kind stands here. -/
def isStage (stage : Stage) (notice : Notice) : Bool :=
  (notice.body? stage).isSome

/-- The names that are declared outside of stages, in their order. -/
def names (notices : List Notice) : List String :=
  notices.filterMap name?

/-- The declarations in a role, in their order. -/
def declared (role : Role) (notices : List Notice) : List Declaration :=
  notices.filterMap (declared? role)

/-- The components of the vertex layout, in their order. -/
def components (notices : List Notice) : List VertexComponent :=
  notices.filterMap component?

/-- What is wrong with something that is declared behind something else. -/
inductive Violates (before : List Notice) : Notice → DeclarationError → Prop
  | uniform {uniform : Declaration} {line : Nat} :
    uniform.name ∈ (declared .uniform before).map (·.name) →
    Violates before (.declaration .uniform uniform line) ⟨line, .duplicateUniform uniform.name⟩
  | name {role : Role} {named : Declaration} {line : Nat} :
    ¬(role = .uniform ∧ named.name ∈ (declared .uniform before).map (·.name)) →
    named.name ∈ names before →
    Violates before (.declaration role named line) ⟨line, .duplicateDeclaration named.name⟩
  -- That a component is unknown counts, whether or not its name was declared before.
  | unknown {name : String} {line : Nat} :
    VertexComponent.ofName? name = none →
    Violates before (.component name line) ⟨line, .unknownVertexComponent name⟩
  | component {name : String} {line : Nat} :
    VertexComponent.ofName? name ≠ none →
    name ∈ names before →
    Violates before (.component name line) ⟨line, .duplicateDeclaration name⟩
  | layout {line : Nat} :
    before.any isLayout = true →
    Violates before (.layout line) ⟨line, .duplicateVertexLayout⟩
  | stage {which : Stage} {body : List Statement} {line : Nat} :
    before.any (isStage which) = true →
    Violates before (.stage which body line) ⟨line, .duplicateStage which⟩

/-- Nothing is wrong with anything in view of what stands before it. -/
def Unviolated (notices : List Notice) : Prop :=
  ∀ before notice after, notices = before ++ notice :: after → ∀ fault, ¬Violates before notice fault

/-- What is wrong with the first thing with which something is. -/
def FirstViolation (notices : List Notice) (fault : DeclarationError) : Prop :=
  ∃ before notice after, notices = before ++ notice :: after ∧ Unviolated before ∧
    Violates before notice fault

/-- All names are distinct, all components are known, and there is one layout and one stage of each kind. -/
structure WellDeclared (notices : List Notice) : Prop where
  distinct : (names notices).Nodup
  known : ∀ name line, .component name line ∈ notices → VertexComponent.ofName? name ≠ none
  layouts : notices.countP isLayout ≤ 1
  stages : ∀ stage, notices.countP (isStage stage) ≤ 1

/-- The names of declarations in a role are among all that are declared, in their order. -/
theorem declared_sublist_names (role : Role) (notices : List Notice) :
    ((declared role notices).map (·.name)).Sublist (names notices) := by
  -- A notice adds at most one name to the declarations, and then the same one to all names.
  induction notices with
  | nil => exact .slnil
  | cons notice notices ih =>
    unfold declared names at ih ⊢
    cases notice with
    | declaration other d line =>
      by_cases same : other = role
      · simpa [List.filterMap_cons, declared?, name?, same] using ih
      · simpa [List.filterMap_cons, declared?, name?, same] using ih.cons d.name
    | component name line => simpa [List.filterMap_cons, declared?, name?] using ih.cons name
    -- A layout and a stage have no names.
    | layout | stage => simpa [List.filterMap_cons, declared?, name?] using ih

/-- The name of a declaration in a role is among all that are declared. -/
theorem mem_names_of_declared {role : Role} {notices : List Notice} {name : String}
    (member : name ∈ (declared role notices).map (·.name)) : name ∈ names notices :=
  -- The names in one role are some of all names, in the same order.
  (declared_sublist_names role notices).mem member

/-- The declarations in a role are those that parts of the source are. -/
theorem mem_declared {role : Role} {d : Declaration} {items : List (Item (List Statement))} :
    d ∈ declared role (items.flatMap Item.notices) ↔ ∃ line, .declaration role d line ∈ items := by
  -- The declarations are filtered from the notices, which come from the parts.
  unfold declared
  rw [List.mem_filterMap]
  constructor
  · rintro ⟨notice, member, found⟩
    obtain ⟨item, among, gives⟩ := List.mem_flatMap.mp member
    cases notice with
    | declaration other d' line =>
      simp only [declared?, Option.ite_none_right_eq_some, Option.some.injEq] at found
      obtain ⟨rfl, rfl⟩ := found
      -- Only a declaration gives notice of one.
      cases item with
      | declaration => cases List.mem_singleton.mp gives; exact ⟨line, among⟩
      | layout | stage => simp [Item.notices] at gives
    | layout | component | stage => cases found
  · rintro ⟨line, among⟩
    exact ⟨.declaration role d line, List.mem_flatMap.mpr ⟨_, among, by simp [Item.notices]⟩,
      by simp [declared?]⟩

variable {before notices : List Notice} {notice : Notice} {fault fault' : DeclarationError}

/-- Only one thing is wrong with something that is declared. -/
theorem Violates.unique (violates : Violates before notice fault)
    (violates' : Violates before notice fault') : fault = fault' := by
  -- The rules exclude one another, as each is only tried when those before it are kept.
  cases violates <;> cases violates' <;> first | rfl | simp_all

/-- Nothing is wrong with nothing. -/
theorem unviolated_nil : Unviolated [] := by
  -- Nothing is declared, so that nothing can be split off.
  intro before notice after splits
  simp at splits

/-- Something more is declared rightly when nothing before it is wrong, nor itself. -/
theorem unviolated_concat :
    Unviolated (before ++ [notice]) ↔ Unviolated before ∧ ∀ fault, ¬Violates before notice fault := by
  constructor
  · -- What stands before an earlier notice is the same without the last one.
    intro unviolated
    refine ⟨fun earlier other later splits => ?_, unviolated before notice [] rfl⟩
    exact unviolated earlier other (later ++ [notice]) (by simp [splits])
  · rintro ⟨unviolated, last⟩ earlier other later splits
    -- What is looked at is the last one, or stands before it.
    rcases List.eq_nil_or_concat later with rfl | ⟨between, final, rfl⟩
    · obtain ⟨rfl, same⟩ := List.append_inj' splits rfl
      cases same
      exact last
    · rw [List.concat_eq_append, ← List.cons_append, ← List.append_assoc] at splits
      obtain ⟨rfl, -⟩ := List.append_inj' splits rfl
      exact unviolated earlier other between rfl

/-- What is wrong first stays so, whatever is declared behind it. -/
theorem FirstViolation.append (first : FirstViolation notices fault) (more : List Notice) :
    FirstViolation (notices ++ more) fault := by
  -- The parts in front of the place are the same.
  obtain ⟨before, notice, after, rfl, unviolated, violates⟩ := first
  exact ⟨before, notice, after ++ more, by simp, unviolated, violates⟩

/-- Something is wrong first only where anything is wrong. -/
theorem FirstViolation.violated (first : FirstViolation notices fault) : ¬Unviolated notices := by
  -- The place of the fault is one at which nothing may be wrong.
  obtain ⟨before, notice, after, rfl, -, violates⟩ := first
  exact fun unviolated => unviolated before notice after rfl fault violates

/-- Only one thing is wrong first. -/
theorem FirstViolation.unique (first : FirstViolation notices fault)
    (first' : FirstViolation notices fault') : fault = fault' := by
  obtain ⟨before, notice, after, rfl, unviolated, violates⟩ := first
  obtain ⟨before', notice', after', splits, unviolated', violates'⟩ := first'
  -- Of two different places, the earlier one would stand where nothing is wrong.
  rcases List.append_eq_append_iff.mp splits with ⟨between, rfl, rest⟩ | ⟨between, rfl, rest⟩
  · cases between with
    -- At the same place the same is wrong.
    | nil =>
      cases rest
      rw [List.append_nil] at violates'
      exact violates.unique violates'
    | cons first more =>
      cases rest
      exact absurd violates (unviolated' before notice more rfl fault)
  · cases between with
    | nil =>
      cases rest
      rw [List.append_nil] at violates
      exact violates.unique violates'
    | cons first more =>
      cases rest
      exact absurd violates' (unviolated before' notice' more rfl fault')

/-- Something is counted once at most when it was before, and is not there both before and now. -/
theorem countP_concat_le_one (p : Notice → Bool) :
    (before ++ [notice]).countP p ≤ 1 ↔
      before.countP p ≤ 1 ∧ ¬(p notice = true ∧ before.any p = true) := by
  -- The last notice counts for one or for none.
  have counted : before.any p = true ↔ 0 < before.countP p := by
    rw [List.any_eq_true, List.countP_pos_iff]
  rw [List.countP_append, List.countP_singleton, counted]
  by_cases now : p notice = true
  · simp only [now, if_true, true_and]
    omega
  · simp [now]

/-- Names are distinct when those before are and the last one, if it is one, is new. -/
theorem nodup_names_concat :
    (names (before ++ [notice])).Nodup ↔
      (names before).Nodup ∧ ∀ name, notice.name? = some name → name ∉ names before := by
  -- A notice without a name adds none.
  rw [names, List.filterMap_append, ← names]
  cases named : notice.name? with
  | none => simp [named]
  | some name =>
    have apart : (∀ other ∈ names before, other ≠ name) ↔ name ∉ names before :=
      ⟨fun apart member => apart name member rfl, fun new other member same => new (same ▸ member)⟩
    simpa [named, List.nodup_append] using fun _ => apart

/-- Something more is declared well when what stands before is, and it keeps to the rules itself. -/
theorem wellDeclared_concat :
    WellDeclared (before ++ [notice]) ↔ WellDeclared before ∧
      (∀ name, notice.name? = some name → name ∉ names before) ∧
      (∀ name line, notice = .component name line → VertexComponent.ofName? name ≠ none) ∧
      ¬(notice.isLayout = true ∧ before.any isLayout = true) ∧
      ∀ stage, ¬(notice.isStage stage = true ∧ before.any (isStage stage) = true) := by
  -- Each rule splits into one for what stands before and one for what is added.
  constructor
  · rintro ⟨distinct, known, layouts, stages⟩
    obtain ⟨distinct, new⟩ := nodup_names_concat.mp distinct
    obtain ⟨layouts, noLayout⟩ := (countP_concat_le_one isLayout).mp layouts
    refine ⟨⟨distinct, fun name line member => known name line (by simp [member]), layouts,
      fun stage => ((countP_concat_le_one _).mp (stages stage)).1⟩, new, ?_, noLayout,
      fun stage => ((countP_concat_le_one _).mp (stages stage)).2⟩
    rintro name line rfl
    exact known name line (by simp)
  · -- Conversely the rules for both are put together.
    rintro ⟨⟨distinct, known, layouts, stages⟩, new, knownLast, noLayout, noStage⟩
    refine ⟨nodup_names_concat.mpr ⟨distinct, new⟩, fun name line member => ?_,
      (countP_concat_le_one isLayout).mpr ⟨layouts, noLayout⟩,
      fun stage => (countP_concat_le_one _).mpr ⟨stages stage, noStage stage⟩⟩
    rcases List.mem_append.mp member with earlier | last
    · exact known name line earlier
    · exact knownLast name line (List.mem_singleton.mp last).symm

/-- Nothing is wrong with something that keeps to the rules, which ask for what each kind of it has. -/
theorem not_violates_iff :
    (∀ fault, ¬Violates before notice fault) ↔
      (∀ name, notice.name? = some name → name ∉ names before) ∧
      (∀ name line, notice = .component name line → VertexComponent.ofName? name ≠ none) ∧
      ¬(notice.isLayout = true ∧ before.any isLayout = true) ∧
      ∀ stage, ¬(notice.isStage stage = true ∧ before.any (isStage stage) = true) := by
  constructor
  · -- Each rule that a notice breaks gives a violation, which depends on its kind.
    intro none
    refine ⟨fun name named member => ?_, ?_, fun repeated => ?_, fun stage repeated => ?_⟩
    · cases notice with
      | declaration role declared line =>
        cases named
        -- A repeated name is either that of an earlier uniform, or any other one.
        by_cases uniform : role = .uniform ∧ declared.name ∈ (Notice.declared .uniform before).map (·.name)
        · obtain ⟨rfl, member⟩ := uniform
          exact none _ (.uniform member)
        · exact none _ (.name uniform member)
      | component name line =>
        cases named
        by_cases known : VertexComponent.ofName? name = .none
        · exact none _ (.unknown known)
        · exact none _ (.component known member)
      | layout | stage => cases named
    · rintro name line rfl unknown
      exact none _ (.unknown unknown)
    · cases notice with
      -- A layout and a stage are counted, and nothing else is.
      | layout line => exact none _ (.layout repeated.2)
      | declaration | component | stage => cases repeated.1
    · cases notice with
      | stage which body line =>
        obtain ⟨same, before⟩ := repeated
        obtain rfl : which = stage := by
          by_contra differs
          simp [isStage, body?, differs] at same
        exact none _ (.stage before)
      | declaration | component | layout => cases repeated.1
  · -- Conversely, each way of violating a rule is excluded by the rule itself.
    rintro ⟨new, known, noLayout, noStage⟩ fault violates
    cases violates with
    | uniform member =>
      exact new _ rfl (mem_names_of_declared member)
    | name _ member => exact new _ rfl member
    | unknown unknown => exact known _ _ rfl unknown
    | component _ member => exact new _ rfl member
    | layout repeated => exact noLayout ⟨rfl, repeated⟩
    | @stage which _ _ repeated => exact noStage which ⟨by simp [isStage, body?], repeated⟩

/-- Nothing is wrong exactly when all is declared well. -/
theorem unviolated_iff_wellDeclared : Unviolated notices ↔ WellDeclared notices := by
  -- From the front to the end: every rule asks something of the last notice alone.
  induction notices using List.reverseRecOn with
  | nil =>
    refine ⟨fun _ => ⟨List.nodup_nil, ?_, Nat.zero_le _, fun _ => Nat.zero_le _⟩,
      fun _ => unviolated_nil⟩
    simp
  | append_singleton before notice ih =>
    rw [unviolated_concat, wellDeclared_concat, ih, not_violates_iff]

end Notice

end Shading

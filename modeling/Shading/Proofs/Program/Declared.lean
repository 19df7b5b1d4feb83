import Shading.Proofs.Grammar.Validity
import Shading.Proofs.Program.Notices
import Shading.Proofs.Selection.Agreement

/-! A source is a program exactly when everything active in it is declared well. -/

namespace Shading

open Notice

namespace Draft

/-- A draft whose vertex layout has started. -/
def withLayout (draft : Draft) : Draft :=
  { draft with hasLayout := true }

/-- Declares what a part of a source gives notice of. -/
def note (draft : Draft) : Notice → Except DeclarationError Draft
  | .declaration role declared line => draft.declareName role declared line
  | .layout line =>
    if draft.hasLayout then .error ⟨line, .duplicateVertexLayout⟩ else .ok draft.withLayout
  | .component name line => draft.declareComponent (name, line)
  | .stage which body line => draft.declareStage which body line

/-- A component is declared whether or not its layout counts as started. -/
theorem declareComponent_withLayout (draft : Draft) (named : String × Nat) :
    draft.withLayout.declareComponent named = (draft.declareComponent named).map withLayout := by
  -- Whether a layout was started has no part in the rules for its components.
  unfold declareComponent
  split
  · rfl
  · change (if draft.program.isDeclared named.1 then _ else _) = _
    split <;> rfl

/-- Components are declared whether or not their layout counts as started. -/
theorem note_components (draft : Draft) (named : List (String × Nat)) :
    (named.map fun (name, line) => Notice.component name line).foldlM note draft.withLayout =
      (named.foldlM declareComponent draft).map withLayout := by
  -- Component by component.
  rw [List.foldlM_map]
  exact foldlM_moved declareComponent_withLayout draft named

/-- A part is declared by declaring what it gives notice of. -/
theorem declare_eq_note (draft : Draft) (item : Item (List Statement)) :
    draft.declare item = item.notices.foldlM note draft := by
  -- A layout gives notice of itself and of each component, and all else of one thing.
  cases item with
  | declaration role declared line =>
    simp only [declare, Item.notices, List.foldlM_cons, List.foldlM_nil, note]
    cases draft.declareName role declared line <;> rfl
  | layout named line =>
    simp only [declare, declareLayout, Item.notices, List.foldlM_cons, note]
    split
    · rfl
    · -- The notices of the components are declared one by one, in the same order.
      rw [Grammar.ok_bind, note_components]
      cases named.foldlM declareComponent draft <;> rfl
  | stage which body line =>
    simp only [declare, Item.notices, List.foldlM_cons, List.foldlM_nil, note]
    cases draft.declareStage which body line <;> rfl

/-- Parts are declared by declaring what they give notice of, one after the other. -/
theorem declareAll_eq_note (draft : Draft) (items : List (Item (List Statement))) :
    draft.declareAll items = (items.flatMap Item.notices).foldlM note draft := by
  -- One part after the other, each of which gives notice of what it declares.
  unfold declareAll
  induction items generalizing draft with
  | nil => rfl
  | cons first more ih =>
    rw [List.foldlM_cons, List.flatMap_cons, List.foldlM_append, declare_eq_note]
    exact congrArg _ (funext ih)

/-- A draft holds what was declared so far, and nothing else. -/
structure Holds (draft : Draft) (notices : List Notice) : Prop where
  uniforms : draft.program.uniforms = declared .uniform notices
  varyings : draft.program.varyings = declared .varying notices
  outputs : draft.program.outputs = declared .output notices
  layout : draft.program.layout.components = components notices
  stages : ∀ stage, draft.program.stage? stage = notices.findSome? (body? stage)
  hasLayout : draft.hasLayout = notices.any isLayout
  names : ∀ name, draft.program.isDeclared name = true ↔ name ∈ names notices

/-- Before anything is declared, a draft holds nothing. -/
theorem holds_empty (name : String) (defines : Defines) :
    Holds ⟨.empty name defines, false⟩ [] where
  uniforms := rfl
  varyings := rfl
  outputs := rfl
  layout := rfl
  stages stage := by cases stage <;> rfl
  hasLayout := rfl
  names name := by simp [Program.isDeclared, Program.declaredNames, Program.empty, Notice.names]

variable {draft : Draft} {before notices : List Notice}

/-- A uniform of a name is found when one was declared. -/
theorem Holds.uniform? (holds : draft.Holds before) (name : String) :
    (draft.program.uniform? name).isSome = true ↔ name ∈ (declared .uniform before).map (·.name) := by
  -- A uniform is looked up among those that were declared.
  rw [Program.uniform?, holds.uniforms, List.find?_isSome]
  simp

/-- One more declaration makes one more name declared. -/
theorem isDeclared_addDeclaration (draft : Draft) (role : Role) (d : Declaration) (name : String) :
    (draft.addDeclaration role d).program.isDeclared name = true ↔
      draft.program.isDeclared name = true ∨ name = d.name := by
  -- The names are those of all roles in turn, and the new one is put behind its own.
  cases role <;>
    simp [Program.isDeclared, Program.declaredNames, addDeclaration] <;> grind

/-- One more component makes its name declared. -/
theorem isDeclared_addComponent (draft : Draft) (component : VertexComponent) (name : String) :
    (draft.addComponent component).program.isDeclared name = true ↔
      draft.program.isDeclared name = true ∨ name = component.name := by
  -- The names of components are the last ones.
  simp [Program.isDeclared, Program.declaredNames, addComponent]
  grind

/-- A component is known by its name. -/
theorem name_of_ofName? {name : String} {component : VertexComponent}
    (found : VertexComponent.ofName? name = some component) : component.name = name := by
  -- The table has one component for each name.
  unfold VertexComponent.ofName? at found
  split at found <;> cases found <;> rfl

/-- A declaration that is accepted is added to what a draft holds. -/
theorem Holds.addDeclaration (holds : draft.Holds before) (role : Role) (d : Declaration) (line : Nat) :
    (draft.addDeclaration role d).Holds (before ++ [.declaration role d line]) := by
  obtain ⟨uniforms, varyings, outputs, layout, stages, hasLayout, names⟩ := holds
  constructor
  case names =>
    intro name
    rw [isDeclared_addDeclaration, names, Notice.names, Notice.names, List.filterMap_append]
    simp [Notice.name?]
  case stages =>
    intro stage
    -- No declaration changes a stage.
    have same : (draft.addDeclaration role d).program.stage? stage = draft.program.stage? stage := by
      cases role <;> cases stage <;> rfl
    simp [same, stages, List.findSome?_append, body?]
  -- What is left is read off the lists, each of which a notice adds to or not.
  all_goals cases role <;>
    simp_all [Draft.addDeclaration, declared, components, declared?, component?, isLayout]

/-- A component that is accepted is added to what a draft holds. -/
theorem Holds.addComponent (holds : draft.Holds before) {name : String} {component : VertexComponent}
    (found : VertexComponent.ofName? name = some component) (line : Nat) :
    (draft.addComponent component).Holds (before ++ [.component name line]) := by
  obtain ⟨uniforms, varyings, outputs, layout, stages, hasLayout, names⟩ := holds
  constructor
  case names =>
    intro other
    rw [isDeclared_addComponent, names, Notice.names, Notice.names, List.filterMap_append]
    simp [Notice.name?, name_of_ofName? found]
  case stages =>
    intro stage
    -- A component is outside of all stages.
    have same : (draft.addComponent component).program.stage? stage = draft.program.stage? stage := by
      cases stage <;> rfl
    simp [same, stages, List.findSome?_append, body?]
  all_goals
    simp_all [Draft.addComponent, declared, components, declared?, component?, isLayout]

/-- A layout that starts is noticed by a draft. -/
theorem Holds.withLayout (holds : draft.Holds before) (line : Nat) :
    draft.withLayout.Holds (before ++ [.layout line]) := by
  obtain ⟨uniforms, varyings, outputs, layout, stages, hasLayout, names⟩ := holds
  constructor
  case stages =>
    intro stage
    have same : draft.withLayout.program.stage? stage = draft.program.stage? stage := rfl
    simp [same, stages, List.findSome?_append, body?]
  -- That a layout has started is all that changes.
  all_goals
    simp_all [Draft.withLayout, declared, components, Notice.names, declared?, component?, isLayout, name?]

/-- A stage that gets its body has it, and the other one keeps its own. -/
theorem stage?_setStage (draft : Draft) (which : Stage) (body : List Statement) (stage : Stage) :
    (draft.setStage which body).program.stage? stage =
      if which = stage then some body else draft.program.stage? stage := by
  -- There are two stages.
  cases which <;> cases stage <;> rfl

/-- A stage that is accepted is added to what a draft holds. -/
theorem Holds.setStage (holds : draft.Holds before) {which : Stage}
    (missing : draft.program.stage? which = none) (body : List Statement) (line : Nat) :
    (draft.setStage which body).Holds (before ++ [.stage which body line]) := by
  obtain ⟨uniforms, varyings, outputs, layout, stages, hasLayout, names⟩ := holds
  constructor
  -- A stage has no name, so that the same ones are declared.
  case names =>
    intro name
    have same : (draft.setStage which body).program.isDeclared name =
        draft.program.isDeclared name := by
      cases which <;> rfl
    rw [same, names, Notice.names, Notice.names, List.filterMap_append]
    simp [Notice.name?]
  case stages =>
    intro stage
    rw [stage?_setStage, List.findSome?_append, ← stages]
    -- The stage was missing, so the new body is the first one of its kind.
    by_cases same : which = stage
    · subst same
      simp [missing, body?]
    · simp [same, body?]
  all_goals cases which <;>
    simp_all [Draft.setStage, declared, components, declared?, component?, isLayout]

/-- A stage was declared when it has a body. -/
theorem Holds.isStage (holds : draft.Holds before) (which : Stage) :
    (draft.program.stage? which).isSome = before.any (Notice.isStage which) := by
  -- The first body of the stage is found where any is.
  rw [holds.stages, Bool.eq_iff_iff, List.findSome?_isSome_iff, List.any_eq_true]
  rfl

/-- What is declared is either accepted and held from then on, or refused for what is wrong with it. -/
theorem Holds.noted (holds : draft.Holds before) (notice : Notice) :
    (∃ next, draft.note notice = .ok next ∧ next.Holds (before ++ [notice]) ∧
        ∀ fault, ¬Violates before notice fault) ∨
      ∃ fault, draft.note notice = .error fault ∧ Violates before notice fault := by
  -- For each kind of notice, the tests of the draft are the rules for what is declared.
  cases notice with
  | declaration role d line =>
    by_cases uniform : role = .uniform ∧ (draft.program.uniform? d.name).isSome = true
    · refine .inr ⟨⟨line, .duplicateUniform d.name⟩, by simp [Draft.note, declareName, uniform], ?_⟩
      obtain ⟨rfl, found⟩ := uniform
      exact .uniform ((holds.uniform? d.name).mp found)
    · by_cases repeated : draft.program.isDeclared d.name = true
      · refine .inr ⟨⟨line, .duplicateDeclaration d.name⟩,
          by simp [Draft.note, declareName, uniform, repeated], ?_⟩
        rw [holds.uniform?] at uniform
        exact .name uniform ((holds.names d.name).mp repeated)
      · refine .inl ⟨draft.addDeclaration role d, by simp [Draft.note, declareName, uniform, repeated],
          holds.addDeclaration role d line, fun fault violates => ?_⟩
        rw [holds.names] at repeated
        cases violates with
        | uniform member => exact repeated (mem_names_of_declared member)
        | name _ member => exact repeated member
  -- A second layout is refused at its keyword, before any of its components.
  | layout line =>
    cases started : draft.hasLayout with
    | true =>
      exact .inr ⟨⟨line, .duplicateVertexLayout⟩, by simp [Draft.note, started],
        .layout (holds.hasLayout ▸ started)⟩
    | false =>
      refine .inl ⟨draft.withLayout, by simp [Draft.note, started], holds.withLayout line,
        fun fault violates => ?_⟩
      cases violates with
      | layout repeated => simp [holds.hasLayout, repeated] at started
  -- Unknown names are refused before repeated ones.
  | component name line =>
    cases known : VertexComponent.ofName? name with
    | none =>
      exact .inr ⟨⟨line, .unknownVertexComponent name⟩, by simp [Draft.note, declareComponent, known],
        .unknown known⟩
    | some component =>
      by_cases repeated : draft.program.isDeclared name = true
      · exact .inr ⟨⟨line, .duplicateDeclaration name⟩,
          by simp [Draft.note, declareComponent, known, repeated],
          .component (by simp [known]) ((holds.names name).mp repeated)⟩
      · refine .inl ⟨draft.addComponent component,
          by simp [Draft.note, declareComponent, known, repeated],
          holds.addComponent known line, fun fault violates => ?_⟩
        rw [holds.names] at repeated
        cases violates with
        | unknown unknown => simp [known] at unknown
        | component _ member => exact repeated member
  -- A stage is refused when there is a body for it already.
  | stage which body line =>
    cases found : draft.program.stage? which with
    | some other =>
      exact .inr ⟨⟨line, .duplicateStage which⟩, by simp [Draft.note, declareStage, found],
        .stage (by rw [← holds.isStage, found]; rfl)⟩
    | none =>
      refine .inl ⟨draft.setStage which body, by simp [Draft.note, declareStage, found],
        holds.setStage found body line, fun fault violates => ?_⟩
      cases violates with
      | stage repeated =>
        rw [← holds.isStage, found] at repeated
        cases repeated

/-- All that is declared is either accepted and held, or refused for what is wrong first. -/
theorem Holds.notedAll (holds : draft.Holds before) (unviolated : Unviolated before)
    (notices : List Notice) :
    (∃ next, notices.foldlM Draft.note draft = .ok next ∧ next.Holds (before ++ notices) ∧
        Unviolated (before ++ notices)) ∨
      ∃ fault, notices.foldlM Draft.note draft = .error fault ∧ FirstViolation (before ++ notices) fault := by
  -- Along the notices: what was accepted so far is held, and nothing is wrong with it.
  induction notices generalizing draft before with
  | nil => exact .inl ⟨draft, rfl, by simpa using holds, by simpa using unviolated⟩
  | cons notice more ih =>
    rw [List.foldlM_cons, List.append_cons]
    rcases holds.noted notice with ⟨next, accepted, heldNext, fine⟩ | ⟨fault, refused, violates⟩
    · rw [accepted]
      exact ih heldNext (unviolated_concat.mpr ⟨unviolated, fine⟩)
    · rw [refused]
      exact .inr ⟨fault, rfl, before, notice, more, by simp, unviolated, violates⟩

/-- Parts are declared when nothing is wrong with them, and refused for what is wrong first. -/
theorem declareAll_cases (name : String) (defines : Defines) (items : List (Item (List Statement))) :
    let notices := items.flatMap Item.notices
    let declared := declareAll ⟨.empty name defines, false⟩ items
    (∃ draft, declared = .ok draft ∧ draft.Holds notices ∧ WellDeclared notices) ∨
      ∃ fault, declared = .error fault ∧ FirstViolation notices fault := by
  -- A draft that holds nothing is where the notices start.
  dsimp only
  rw [declareAll_eq_note, ← unviolated_iff_wellDeclared]
  exact (holds_empty name defines).notedAll unviolated_nil _

end Draft

namespace Program

open Grammar Selection

variable {tokens : List Token} {items : List SourceItem}

/-- A sentence is read whole, or the first of the parts that count in it before the nesting ends the reading. -/
theorem sourceItems_ofSentence (sentence : SentenceOf items tokens) (room : Nat)
    (isDefined : String → Bool) :
    (∃ rest, Source.sourceItems room tokens = ⟨items, .ok rest⟩) ∨
      IsTooDeep (Source.sourceItems room tokens).rest ∧
        activeItems isDefined (Source.sourceItems room tokens).completed <+:
          activeItems isDefined items := by
  -- A sentence fits within some number of levels, which may be more than there are.
  obtain ⟨needed, line, spans⟩ := sentence
  have spans := spans.mono (Nat.le_max_right room needed)
  have wide := Nat.le_max_left room needed
  rcases sourceItems_narrows wide tokens with same | tooDeep
  · exact .inl ⟨_, same.trans (sourceItems_complete spans)⟩
  · -- Both the parts completed and those of the sentence stand in front of the selected words.
    obtain ⟨after, front⟩ := sourceItems_front isDefined tooDeep
    obtain ⟨more, completed⟩ :=
      sourceItems_completes (front.imp fun _ _ _ span => span.mono wide) isDefined
    have keptAll := items_kept isDefined spans
    have keptEnd : select isDefined [⟨.endOfFile, line⟩] = [⟨.endOfFile, line⟩] :=
      selectFrom_plain_kept rfl (isPlain_end line) []
    rw [ItemsKept, keptEnd] at keptAll
    have read := sourceItems_selected keptAll
    rw [select] at read
    rw [read, activeItems_toSource] at completed
    exact .inr ⟨tooDeep, more, completed.symm⟩

/-- A sentence is a program that holds what is active, or fails for what is wrong first. -/
theorem parse_sentence_cases {source : String} (cut : tokenize source = .ok tokens)
    (sentence : SentenceOf items tokens) (name : String) (defines : Defines)
    (fits : ∀ line, parse name defines source ≠ .error (.grammar ⟨line, .tooDeep⟩)) :
    let notices := (activeItems defines.isDefined items).flatMap Item.notices
    (∃ draft : Draft, parse name defines source = .ok draft.program ∧ draft.Holds notices ∧
        WellDeclared notices) ∨
      ∃ fault, parse name defines source = .error (.declaration fault) ∧
        FirstViolation notices fault := by
  intro notices
  rw [parse_eq_ofTokens cut, ofTokens_eq] at fits ⊢
  -- Either all parts were read, or those in front of the place where the nesting ended it.
  rcases sourceItems_ofSentence sentence maxNesting defines.isDefined with
    ⟨rest, whole⟩ | ⟨⟨line, tooDeep⟩, more, parts⟩
  · rw [whole]
    rcases Draft.declareAll_cases name defines (activeItems defines.isDefined items) with
      ⟨draft, accepted, holds, fine⟩ | ⟨fault, refused, first⟩
    · exact .inl ⟨draft, by rw [accepted], holds, fine⟩
    · exact .inr ⟨fault, by rw [refused], first⟩
  · rcases Draft.declareAll_cases name defines
        (activeItems defines.isDefined (Source.sourceItems maxNesting tokens).completed) with
      ⟨draft, accepted, -, -⟩ | ⟨fault, refused, first⟩
    · exact absurd (by rw [accepted, tooDeep]) (fits line)
    · -- What is wrong first with the parts that were completed is so with all of them.
      refine .inr ⟨fault, by rw [refused], ?_⟩
      have all := first.append (more.flatMap Item.notices)
      rwa [← List.flatMap_append, parts] at all

/-- A program holds what is active in its source, which is declared well. -/
theorem holds_of_parse {name source : String} {defines : Defines} {program : Program}
    (parsed : parse name defines source = .ok program) (cut : tokenize source = .ok tokens)
    (sentence : SentenceOf items tokens) :
    let notices := (activeItems defines.isDefined items).flatMap Item.notices
    ∃ draft : Draft, draft.program = program ∧ draft.Holds notices ∧ WellDeclared notices := by
  intro notices
  -- What was read is not nested too deeply.
  have fits : ∀ line, parse name defines source ≠ .error (.grammar ⟨line, .tooDeep⟩) := by
    intro line tooDeep
    rw [parsed] at tooDeep
    cases tooDeep
  rcases parse_sentence_cases cut sentence name defines fits with
    ⟨draft, parsed', holds, fine⟩ | ⟨fault, failed, -⟩
  · exact ⟨draft, Except.ok.inj (parsed'.symm.trans parsed), holds, fine⟩
  · rw [parsed] at failed
    cases failed

/-- The words of a program are a sentence. -/
theorem sentence_of_parse {name source : String} {defines : Defines} {program : Program}
    (parsed : parse name defines source = .ok program) :
    ∃ tokens items, tokenize source = .ok tokens ∧ SentenceOf items tokens := by
  -- The reading ended without a fault, so that what it read is a sentence.
  obtain ⟨tokens, draft, rest, cut, whole, -⟩ := parse_eq_ok parsed
  obtain ⟨spans, line, rfl⟩ := sourceItems_sound (tokenize_endsOnce cut) whole
  exact ⟨tokens, _, cut, maxNesting, line, spans⟩

/-- A part of a source that is active under some defines declares a uniform. -/
def DeclaresUniform (source : String) (defines : Defines) (uniform : Declaration) : Prop :=
  ∃ tokens items line, tokenize source = .ok tokens ∧ SentenceOf items tokens ∧
    .declaration .uniform uniform line ∈ activeItems defines.isDefined items

/-- The uniforms of a program are those that active parts of its source declare. -/
theorem mem_uniforms_iff {name source : String} {defines : Defines} {program : Program}
    (parsed : parse name defines source = .ok program) (uniform : Declaration) :
    uniform ∈ program.uniforms ↔ DeclaresUniform source defines uniform := by
  -- In both directions, the program holds the uniforms that its active parts give notice of.
  constructor
  · intro member
    obtain ⟨tokens, items, cut, sentence⟩ := sentence_of_parse parsed
    obtain ⟨draft, rfl, holds, -⟩ := holds_of_parse parsed cut sentence
    rw [holds.uniforms, mem_declared] at member
    obtain ⟨line, active⟩ := member
    exact ⟨tokens, items, line, cut, sentence, active⟩
  · -- The words of a sentence are read, and give the same draft.
    rintro ⟨tokens, items, line, cut, sentence, active⟩
    obtain ⟨draft, rfl, holds, -⟩ := holds_of_parse parsed cut sentence
    rw [holds.uniforms, mem_declared]
    exact ⟨line, active⟩

/-- No two uniforms of a program share a name. -/
theorem nodup_uniforms {name source : String} {defines : Defines} {program : Program}
    (parsed : parse name defines source = .ok program) :
    (program.uniforms.map (·.name)).Nodup := by
  -- The uniforms are some of the declarations, which all have different names.
  obtain ⟨tokens, items, cut, sentence⟩ := sentence_of_parse parsed
  obtain ⟨draft, rfl, holds, fine⟩ := holds_of_parse parsed cut sentence
  rw [holds.uniforms]
  exact fine.distinct.sublist (declared_sublist_names .uniform _)

/--
A sentence is a program exactly when all that is active in it is declared well.

The program declares just that, in its order.
Any other sentence fails for what is wrong first.
-/
theorem parse_firstViolation {source : String} (cut : tokenize source = .ok tokens)
    (sentence : SentenceOf items tokens) (name : String) (defines : Defines)
    (fits : ∀ line, parse name defines source ≠ .error (.grammar ⟨line, .tooDeep⟩)) :
    let notices := (activeItems defines.isDefined items).flatMap Item.notices
    ((∃ program, parse name defines source = .ok program) ↔ WellDeclared notices) ∧
      (∀ program, parse name defines source = .ok program →
        program.uniforms = declared .uniform notices ∧
        program.varyings = declared .varying notices ∧
        program.outputs = declared .output notices ∧
        program.layout.components = components notices ∧
        ∀ stage, program.stage? stage = notices.findSome? (body? stage)) ∧
      ∀ error, parse name defines source = .error error ↔
        ∃ fault, error = .declaration fault ∧ FirstViolation notices fault := by
  intro notices
  -- Both sides of each equivalence are read off the one case that holds.
  rcases parse_sentence_cases cut sentence name defines fits with
    ⟨draft, parsed, holds, fine⟩ | ⟨fault, failed, first⟩
  · refine ⟨⟨fun _ => fine, fun _ => ⟨_, parsed⟩⟩, fun program parsed' => ?_, fun error => ?_⟩
    · obtain rfl : draft.program = program := Except.ok.inj (parsed.symm.trans parsed')
      exact ⟨holds.uniforms, holds.varyings, holds.outputs, holds.layout, holds.stages⟩
    · refine ⟨fun failed => ?_, fun ⟨fault, _, first⟩ => ?_⟩
      · rw [parsed] at failed
        cases failed
      · exact absurd (unviolated_iff_wellDeclared.mpr fine) first.violated
  · -- What is wrong first is the one thing that the error can be.
    refine ⟨⟨fun ⟨program, parsed⟩ => ?_, fun fine => ?_⟩, fun program parsed => ?_, fun error => ?_⟩
    · rw [failed] at parsed
      cases parsed
    · exact absurd (unviolated_iff_wellDeclared.mpr fine) first.violated
    · rw [failed] at parsed
      cases parsed
    · rw [failed]
      refine ⟨fun same => ⟨fault, (Except.error.inj same).symm, first⟩, ?_⟩
      rintro ⟨fault', rfl, first'⟩
      rw [first.unique first']

/-- A name that a region repeats is wrong first where the region is taken, and nothing is where it is not. -/
theorem parse_firstViolation_region :
    let source := "uniform int gain;\nifdef twice \x7b varying vec2 gain; \x7d"
    ∃ tokens items, tokenize source = .ok tokens ∧ SentenceOf items tokens ∧
      WellDeclared ((activeItems Defines.empty.isDefined items).flatMap Item.notices) ∧
      FirstViolation ((activeItems (Defines.empty.define "twice").isDefined items).flatMap Item.notices)
        ⟨2, .duplicateDeclaration "gain"⟩ := by
  dsimp only
  have cut : tokenize "uniform int gain;\nifdef twice \x7b varying vec2 gain; \x7d" = .ok _ := rfl
  -- The sentence is read off the reading of its words.
  obtain ⟨spans, -⟩ := @sourceItems_sound maxNesting _ _ (tokenize_endsOnce cut) rfl
  have sentence : SentenceOf _ _ := ⟨maxNesting, 2, spans⟩
  have parsed : parse "region" .empty _ = .ok _ := (parse_eq_ofTokens cut _ _).trans rfl
  have failed : parse "region" (Defines.empty.define "twice") _ =
      .error (.declaration ⟨2, .duplicateDeclaration "gain"⟩) := (parse_eq_ofTokens cut _ _).trans rfl
  -- The nesting is within the limit under both define sets.
  have plain := parse_firstViolation cut sentence "region" .empty fun line tooDeep => by
    rw [parsed] at tooDeep
    cases tooDeep
  have taken := parse_firstViolation cut sentence "region" (Defines.empty.define "twice")
    fun line tooDeep => by
      rw [failed] at tooDeep
      cases tooDeep
  refine ⟨_, _, cut, sentence, plain.1.mp ⟨_, parsed⟩, ?_⟩
  obtain ⟨fault, same, first⟩ := (taken.2.2 _).mp failed
  cases same
  exact first

end Program

end Shading

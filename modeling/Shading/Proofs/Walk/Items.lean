import Shading.Proofs.Grammar.UnitSound
import Shading.Proofs.Selection.Unconditional
import Shading.Proofs.Walk.Statements

/-! Top-level parts are read with a state that declares them while they are read. -/

namespace Shading.Walk

open Source Grammar

variable {isDefined : String → Bool} {s : State} {room : Nat}

/-- Top-level parts declare what is left of them under the defines, where declarations count. -/
def declarations (isDefined : String → Bool) :
    Meaning isDefined (Guarded.choice : Guard → List SourceItem → List SourceItem → SourceItem)
      Unit where
  effect active draft parts :=
    if active then (draft.declareAll (activeItems isDefined parts)).map fun draft => (draft, [])
    else .ok (draft, [])
  nil active _ := by cases active <;> rfl
  append active draft parts more := by
    cases active with
    | false => rfl
    | true =>
      simp only [activeItems_append, Draft.declareAll, List.foldlM_append, if_true]
      cases (activeItems isDefined parts).foldlM Draft.declare draft with
      | error => rfl
      | ok between =>
        simp only [ok_bind, Except.map]
        cases (activeItems isDefined more).foldlM Draft.declare between <;> rfl
  chosen active draft guard yes no := by
    rw [activeItems_choice]
    cases guard.holds isDefined <;> rfl
  idle _ _ := ⟨[], rfl⟩

/-- A part as it counts under the defines. -/
abbrev resolveItem (isDefined : String → Bool) :
    Item (List SourceStatement) → Item (List Statement) :=
  Item.mapBody (resolveAll isDefined)

/-- A declaration is read after the keyword of its role. -/
theorem declaration_reads (role : Role) (ready : s.Ready room)
    (more : (headToken s.words).isEnd = false) :
    Reads (resolveItem isDefined) s (declaration role) (Source.declaration role s.words.tail) := by
  -- The type, the name and the semicolon are read behind the keyword.
  refine .advance ready more fun ready₁ words => ?_
  rw [← words]
  refine .bind ready₁ (dataType_reads ready₁) fun type {s₂} ready₂ _ => ?_
  refine .look (fun _ => rfl) ?_
  refine .bind ready₂ (name_reads ready₂ .name) fun name _ ready₃ _ => ?_
  exact Passes.bind ready₃ (pass_passes ready₃ _) fun ready₄ _ =>
    Reads.done ready₄ (Item.declaration role ⟨type, name⟩ (headToken s₂.words).line)

/-- The names of components are read up to the closing brace. -/
theorem componentNames_reads (limit : Nat) {limit' : Nat} (ready : s.Ready room)
    (enough : s.words.length < limit) (enough' : s.words.length ≤ limit') :
    Reads id s (componentNames limit) (Source.componentNames limit' s.words) := by
  -- Every component takes a word, so both limits go down with the words that are left.
  induction limit generalizing s limit' with
  | zero => omega
  | succ limit ih =>
    obtain ⟨below, rfl⟩ := ready.sound.limit_succ enough'
    unfold Walk.componentNames Source.componentNames
    refine .look (fun _ => rfl) (.branch (fun closed => ?_) fun _ => .look (fun _ => rfl) ?_)
    · -- The closing brace ends them, and it is passed.
      refine .advance ready (more_of_startsWith closed) fun ready₁ words => ?_
      rw [← words]
      exact .done ready₁ []
    · refine .bind ready (name_reads ready .vertexComponent) fun name _ ready₁ read => ?_
      have fewer := name_shorter read
      -- The component is followed by the others, within limits that are one less.
      have further : ∀ {s' : State}, s'.Ready room → s'.words.length < s.words.length →
          Reads id s' (do
            let names ← Walk.componentNames limit
            return (name, (headToken s.words).line) :: names) (do
            let read ← Source.componentNames below s'.words
            return ((name, (headToken s.words).line) :: read.1, read.2)) := fun ready' less =>
        .bind ready' (ih ready' (by omega) (by omega)) fun names _ ready'' _ => .done ready'' _
      refine .look (fun _ => rfl) (.branch (fun _ => further ready₁ fewer) fun _ => ?_)
      refine Passes.bind ready₁ (pass_passes ready₁ .comma) fun ready₂ passed => ?_
      have fewer' := expect_shorter passed
      exact further ready₂ (by omega)

/-- A vertex layout is read from its keyword on. -/
theorem layout_reads (ready : s.Ready room) (more : (headToken s.words).isEnd = false) :
    Reads (resolveItem isDefined) s layout (layoutItem s.words) := by
  -- The line is that of the keyword, where the cursor still stands.
  refine .look (fun _ => rfl) (.advance ready more fun ready₁ words => ?_)
  unfold layoutItem
  rw [← words]
  refine Passes.bind ready₁ (pass_passes ready₁ .leftBrace) fun ready₂ _ => ?_
  exact .bind ready₂ (.looping fun limit enough =>
      componentNames_reads limit ready₂ enough (Nat.le_refl _)) fun named _ ready₃ _ =>
    Reads.done ready₃ (Item.layout named (headToken s.words).line)

/-- A stage is read from its keyword on. -/
theorem stage_reads (which : Stage) (ready : s.Ready room)
    (more : (headToken s.words).isEnd = false) :
    Reads (resolveItem isDefined) s (stage isDefined room which) (stageItem room which s.words) := by
  -- The line is that of the keyword, where the cursor still stands.
  refine .look (fun _ => rfl) (.advance ready more fun ready₁ words => ?_)
  unfold stageItem
  rw [← words]
  exact .bind ready₁ ((bodies_read isDefined room).block ready₁) fun body _ ready₂ _ =>
    Reads.done ready₂ (Item.stage which body (headToken s.words).line)

/-- A top-level part that is not conditional is read. -/
theorem plainItem_reads (ready : s.Ready room) :
    Reads (resolveItem isDefined) s (plainItem isDefined room)
      (Source.plainItem room s.words) := by
  refine .look (fun _ => rfl) ?_
  unfold Source.plainItem
  -- The first word tells which part it is.
  -- Nothing is read where no keyword of a part is in front.
  cases met : headKeyword? s.words with
  | none => exact .fault ready
  | some keyword =>
    have more := more_of_headKeyword met
    cases keyword with
    | uniform => exact declaration_reads .uniform ready more
    | varying => exact declaration_reads .varying ready more
    | output => exact declaration_reads .output ready more
    | vertexLayout => exact layout_reads ready more
    | vertex => exact stage_reads .vertex ready more
    | fragment => exact stage_reads .fragment ready more
    | _ => exact .fault ready

/-- A part that is read is declared where declarations count, and leaves nothing. -/
theorem declare_reads (ready : s.Ready room) (item : Item (List SourceStatement)) :
    ReadsParts (declarations isDefined) s (do
        declare (resolveItem isDefined item)
        return []) ⟨[.always item], .ok s.words⟩ := by
  have single : s.draft.declareAll (activeItems isDefined [.always item]) =
      s.draft.declare (resolveItem isDefined item) := by
    simp only [activeItems, selectAll, Guarded.select, Draft.declareAll, List.append_nil,
      List.map_cons, List.map_nil, List.foldlM_cons, List.foldlM_nil, bind_pure]
  -- A single part is declared as the list of it would be.
  by_cases active : s.active = true
  · simp only [ReadsParts, Meaning.foretell, declarations, active, if_true, single]
    cases declared : s.draft.declare (resolveItem isDefined item) with
    -- A refused declaration changes nothing, and its fault ends the reading.
    | error error =>
      have answers : declare (resolveItem isDefined item) s =
          some (.error (.declaration error), s) := by simp [declare, active, declared]
      rw [bind_of_error answers]
      exact .error (.refl ready.sound)
    | ok draft =>
      have answers : declare (resolveItem isDefined item) s =
          some (.ok (), { s with draft }) := by simp [declare, active, declared]
      rw [bind_of_ok answers]
      exact .ok ⟨ready.sound.of_same rfl rfl rfl, rfl, rfl, rfl⟩ rfl rfl rfl
  · -- Within a region that is not taken, the part is passed over.
    have answers : declare (resolveItem isDefined item) s = some (.ok (), s) := by
      simp [declare, active]
    simp only [ReadsParts, Meaning.foretell, declarations, active]
    rw [bind_of_ok answers]
    exact .ok (.refl ready.sound) rfl rfl rfl

/-- A top-level part or a conditional among them is read and declared. -/
theorem item_reads {inner : Items} {parsers : ItemParsers}
    (nested : ReadsNested (declarations isDefined) room inner.item inner.conditional parsers.item
      parsers.conditional)
    (sound : SoundItemReaders room parsers) (ready : s.Ready room) :
    ReadsParts (declarations isDefined) s (item isDefined room inner)
      (Source.item room parsers s.words) := by
  refine .visiting ready (.look (fun _ => rfl) ?_) fun read => ?_
  · -- Only a part that is not conditional is declared here, the others are within.
    unfold Source.item
    by_cases starts : startsConditional s.words = true
    · rw [if_pos starts, if_pos starts]
      exact nested.conditional_reads ready starts
    · rw [if_neg starts, if_neg starts]
      refine .bind ready (plainItem_reads ready) (fun error failed => ?_)
        fun item {s₁} ready₁ read => ?_
      · rw [failed]
        rfl
      · rw [read]
        exact declare_reads ready₁ item
  · -- Either kind of part takes a word.
    obtain ⟨item, -, spans⟩ := item_sound sound read
    exact spans.length_le

/-- Top-level parts are read one level deeper when both of their readers do what the parsers for them
do. -/
theorem readsItems_of_nested {inner : Items}
    (part : ∀ {s : State}, s.Ready room →
      ReadsParts (declarations isDefined) s (nested inner.item) ((itemParsers room).item s.words))
    (chained : ∀ {s : State}, s.Ready room → startsConditional s.words = true →
      ReadsParts (declarations isDefined) s (nested inner.conditional)
        ((itemParsers room).conditional s.words)) :
    ReadsNested (declarations isDefined) room inner.item inner.conditional (itemParsers room).item
      (itemParsers room).conditional := by
  -- That words are taken is known of the parsers.
  have sound := itemParsers_sound room
  refine ⟨part, chained, ?_, ?_⟩
  · intro tokens rest read
    obtain ⟨_, _, _, _, spans⟩ := sound.item read
    exact spans.length_le
  · intro tokens rest starts read
    obtain ⟨_, _, _, _, spans⟩ := sound.conditional starts read
    exact spans.length_le

/-- The readers of a number of levels read one level deeper what the parsers of that number accept. -/
theorem items_read (isDefined : String → Bool) (room : Nat) :
    ReadsNested (declarations isDefined) room (items isDefined room).item
      (items isDefined room).conditional (itemParsers room).item (itemParsers room).conditional := by
  induction room with
  | zero =>
    -- With no level left, both find that it is too deep.
    exact readsItems_of_nested (fun ready => .nested ready (fun _ => rfl) nofun)
      fun ready _ => .nested ready (fun _ => rfl) nofun
  | succ room ih =>
    refine readsItems_of_nested (fun ready => .nested ready nofun ?_)
      fun ready starts => .nested ready nofun ?_
    all_goals
      intro fewer s' less below words
      obtain rfl : room = fewer := by omega
      rw [← words]
    · exact item_reads ih (itemParsers_sound room) below
    · exact ih.conditional_reads below (words ▸ starts)

end Shading.Walk

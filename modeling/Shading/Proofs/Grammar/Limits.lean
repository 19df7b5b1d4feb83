import Shading.Proofs.Grammar.Parts

/-! A narrower limit on the nesting changes no reading, except that it may cut it short. -/

namespace Shading.Grammar

open Source

variable {α β : Type}

/-- The reading ended because the words are nested too deeply. -/
def IsTooDeep (result : Except GrammarError α) : Prop :=
  ∃ line, result = .error ⟨line, .tooDeep⟩

/-- A result under a narrower limit: the same one, unless the nesting ended the reading. -/
def CutShort (narrow wide : Except GrammarError α) : Prop :=
  narrow = wide ∨ IsTooDeep narrow

/-- Parts read under a narrower limit: the same ones, unless the nesting ended the reading. -/
def CutParts (narrow wide : Outcome α) : Prop :=
  narrow = wide ∨ IsTooDeep narrow.rest

/-- A reader that is a narrower form of another one. -/
def Narrows (narrow wide : Parser α) : Prop :=
  ∀ tokens, CutShort (narrow tokens) (wide tokens)

/-- A reader of parts that is a narrower form of another one. -/
def NarrowsParts (narrow wide : PartsParser α) : Prop :=
  ∀ tokens, CutParts (narrow tokens) (wide tokens)

namespace CutShort

/-- No reading is cut short by its own limit. -/
@[simp] theorem refl (result : Except GrammarError α) : CutShort result result :=
  -- Both readings are the same one.
  .inl rfl

/-- Two steps are cut short when one of them is. -/
theorem bind {narrow wide : Except GrammarError α} {next next' : α → Except GrammarError β}
    (first : CutShort narrow wide) (second : ∀ value, CutShort (next value) (next' value)) :
    CutShort (narrow >>= next) (wide >>= next') := by
  -- Where the first step is cut short, the second one is not made.
  rcases first with rfl | ⟨line, rfl⟩
  · cases narrow with
    | error => exact refl _
    | ok value => exact second value
  · exact .inr ⟨line, rfl⟩

/-- A choice between readings is cut short when the one that is made is. -/
theorem ite {condition : Prop} [Decidable condition] {yes yes' no no' : Except GrammarError α}
    (first : condition → CutShort yes yes') (second : ¬condition → CutShort no no') :
    CutShort (if condition then yes else no) (if condition then yes' else no') := by
  -- Both readings make the same choice, as the limit has no part in the condition.
  by_cases holds : condition
  · simpa [holds] using first holds
  · simpa [holds] using second holds

end CutShort

section Expressions

variable {narrow wide : Parser Expr} {room wider : Nat}

/-- The arguments of a call after the first one are cut short with the expressions in them. -/
theorem moreArguments_narrows (narrows : Narrows narrow wide) (limit : Nat) :
    Narrows (moreArguments narrow limit) (moreArguments wide limit) := by
  -- By the limit of the loop, which is the same on both sides.
  induction limit with
  | zero => exact fun _ => .refl _
  | succ limit ih =>
    intro tokens
    refine .ite (fun _ => ?_) fun _ => .refl _
    exact (narrows _).bind fun _ => (ih _).bind fun _ => .refl _

/-- The arguments of a call are cut short with the expressions in them. -/
theorem arguments_narrows (narrows : Narrows narrow wide) :
    Narrows (arguments narrow) (arguments wide) := by
  -- Only the expressions inside depend on the limit.
  intro tokens
  refine .ite (fun _ => .refl _) fun _ => ?_
  exact (narrows _).bind fun _ => (moreArguments_narrows narrows _ _).bind fun _ => .refl _

/-- A primary expression is cut short with the one in its parentheses. -/
theorem primary_narrows (narrows : Narrows narrow wide) :
    Narrows (primary narrow) (primary wide) := by
  -- Of all primary expressions only that in parentheses has another one inside.
  intro tokens
  unfold primary
  split
  case h_5 => exact (narrows _).bind fun _ => .refl _
  all_goals exact .refl _

/-- Suffixes are cut short with the expressions in them. -/
theorem suffixes_narrows (narrows : Narrows narrow wide) (limit : Nat) (object : Expr) :
    Narrows (suffixes narrow limit object) (suffixes wide limit object) := by
  induction limit generalizing object with
  | zero => exact fun _ => .refl _
  | succ limit ih =>
    intro tokens
    simp only [suffixes]
    -- What is in parentheses or brackets may be cut short, and with it all that is behind.
    split
    · split
      · exact (arguments_narrows narrows _).bind fun _ => ih _ _
      · exact .refl _
    · exact (CutShort.refl _).bind fun _ => ih _ _
    · exact (narrows _).bind fun _ => (CutShort.refl _).bind fun _ => ih _ _
    · exact .refl _

/-- An operand is cut short with the operand and the expressions in it. -/
theorem unary_narrows {deeper deeper' : Parser Expr} (narrowsDeeper : Narrows deeper deeper')
    (narrows : Narrows narrow wide) : Narrows (unary deeper narrow) (unary deeper' wide) := by
  -- The operator in front and the suffixes behind do not depend on the limit.
  intro tokens
  unfold unary
  split
  · exact (narrowsDeeper _).bind fun _ => .refl _
  · exact (primary_narrows narrows _).bind fun _ => suffixes_narrows narrows _ _ _

/-- A chain of operators is cut short with its operands, or where it is too long. -/
theorem chain_narrows {tighter tighter' : Nat → Parser Expr}
    (narrows : ∀ level, Narrows (tighter level) (tighter' level)) (least : Nat)
    (enough : room ≤ wider) (left : Expr) :
    Narrows (chain tighter least room left) (chain tighter' least wider left) := by
  -- By the smaller room; with the same operators in front, both chains go on alike.
  induction room generalizing wider left with
  | zero =>
    intro tokens
    unfold chain
    split
    · exact .refl _
    · -- A chain that goes on without room is nested too deeply.
      exact .ite (fun _ => .refl _) fun _ => .inr ⟨_, rfl⟩
  | succ room ih =>
    obtain ⟨wider, rfl⟩ : ∃ less, wider = less + 1 := ⟨wider - 1, by omega⟩
    intro tokens
    unfold chain
    split
    · exact .refl _
    · refine .ite (fun _ => .refl _) fun _ => ?_
      exact (narrows _ _).bind fun _ => ih (by omega) _ _

/-- Joined operands are cut short with the operands, or where there are too many of them. -/
theorem climb_narrows (narrows : Narrows narrow wide) (enough : room ≤ wider) (levels : Nat) :
    ∀ least, Narrows (climb narrow room levels least) (climb wide wider levels least) := by
  -- From the tightest level outwards, with chains of tighter operands.
  induction levels with
  | zero => exact fun _ => narrows
  | succ levels ih =>
    exact fun least tokens => (narrows _).bind fun _ => chain_narrows ih least enough _ _

/-- A choice between expressions is cut short with the expressions in it. -/
theorem ternary_narrows {operand operand' : Parser Expr} (narrowsOperand : Narrows operand operand')
    (narrows : Narrows narrow wide) (enough : room ≤ wider) :
    Narrows (ternary room operand narrow) (ternary wider operand' wide) := by
  -- The condition is read first, and the branches only behind a question mark.
  intro tokens
  refine (climb_narrows narrowsOperand enough _ _ _).bind fun _ => ?_
  refine .ite (fun _ => ?_) fun _ => .refl _
  exact (narrows _).bind fun _ => (CutShort.refl _).bind fun _ => (narrows _).bind fun _ => .refl _

/-- Expressions and operands are cut short by a narrower limit. -/
theorem exprParsers_narrows (enough : room ≤ wider) :
    Narrows (exprParsers room).expression (exprParsers wider).expression ∧
      Narrows (exprParsers room).operand (exprParsers wider).operand := by
  -- With no room at all everything is cut short, and otherwise both sides lose one level.
  induction room generalizing wider with
  | zero => exact ⟨fun _ => .inr ⟨_, rfl⟩, fun _ => .inr ⟨_, rfl⟩⟩
  | succ room ih =>
    obtain ⟨wider, rfl⟩ : ∃ less, wider = less + 1 := ⟨wider - 1, by omega⟩
    obtain ⟨expression, operand⟩ := ih (Nat.le_of_succ_le_succ enough)
    have narrowsUnary := unary_narrows operand expression
    exact ⟨ternary_narrows narrowsUnary expression (by omega), narrowsUnary⟩

end Expressions

section Parts

variable {part part' chained chained' : PartsParser α}

namespace CutParts

/-- No reading is cut short by its own limit. -/
@[simp] theorem refl (outcome : Outcome α) : CutParts outcome outcome :=
  -- Both readings are the same one.
  .inl rfl

/-- Parts are cut short when those before them or those after them are. -/
theorem andThen {narrow wide : Outcome α} {next next' : PartsParser α}
    (first : CutParts narrow wide) (second : NarrowsParts next next') :
    CutParts (narrow.andThen next) (wide.andThen next') := by
  -- What comes first is cut short, or it is the same and leaves the same words.
  rcases first with rfl | ⟨line, tooDeep⟩
  · rcases narrow with ⟨completed, _ | rest⟩
    · exact refl _
    · rcases second rest with same | tooDeep
      · left
        simp [Outcome.andThen, same]
      · exact .inr tooDeep
  · right
    exact ⟨line, by simp [Outcome.andThen, tooDeep]⟩

/-- A single part is cut short with its reader. -/
theorem ofResult {narrow wide : Except GrammarError (α × List Token)}
    (cut : CutShort narrow wide) : CutParts (.ofResult narrow) (.ofResult wide) := by
  -- The part is the same, or the narrower reader was cut short.
  rcases cut with rfl | ⟨line, rfl⟩
  · exact refl _
  · exact .inr ⟨line, rfl⟩

/-- Parts as a whole are cut short with any of them. -/
theorem toResult {narrow wide : Outcome α} (cut : CutParts narrow wide) :
    CutShort narrow.toResult wide.toResult := by
  -- Parts that were cut short are no whole.
  rcases cut with rfl | ⟨line, tooDeep⟩
  · exact .refl _
  · exact .inr ⟨line, by simp [Outcome.toResult, tooDeep, Except.map]⟩

/-- A choice between readings is cut short when the one that is made is. -/
theorem ite {condition : Prop} [Decidable condition] {yes yes' no no' : Outcome α}
    (first : condition → CutParts yes yes') (second : ¬condition → CutParts no no') :
    CutParts (if condition then yes else no) (if condition then yes' else no') := by
  -- Both readings make the same choice, as the limit has no part in the condition.
  by_cases holds : condition
  · simpa [holds] using first holds
  · simpa [holds] using second holds

end CutParts

/-- Parts up to a closing brace are cut short with any of them. -/
theorem untilBrace_narrows (narrows : NarrowsParts part part') (limit : Nat) :
    NarrowsParts (untilBrace part limit) (untilBrace part' limit) := by
  -- By the limit of the loop, which is the same on both sides.
  induction limit with
  | zero => exact fun _ => .refl _
  | succ limit ih =>
    intro tokens
    refine .ite (fun _ => .refl _) fun _ => .ite (fun _ => .refl _) fun _ => ?_
    exact (narrows _).andThen ih

/-- Parts between braces are cut short with any of them. -/
theorem braced_narrows (narrows : NarrowsParts part part') :
    NarrowsParts (braced part) (braced part') := by
  -- The opening brace does not depend on the limit.
  intro tokens
  unfold braced
  split
  · exact untilBrace_narrows narrows _ _
  · exact .refl _

/-- What follows the first region of a conditional is cut short with its parts. -/
theorem alternative_narrows (narrows : NarrowsParts part part')
    (narrowsChained : NarrowsParts chained chained') :
    NarrowsParts (alternative part chained) (alternative part' chained') := by
  -- The words in front decide between the alternatives, whatever the limit.
  intro tokens
  refine .ite (fun _ => ?_) fun _ => .refl _
  exact .ite (fun _ => narrowsChained _) fun _ => braced_narrows narrows _

/-- A conditional is cut short with either of its regions. -/
theorem conditional_narrows (choice : Shading.Guard → List α → List α → α)
    (narrows : NarrowsParts part part') (narrowsChained : NarrowsParts chained chained') :
    NarrowsParts (conditional choice part chained) (conditional choice part' chained') := by
  -- The test in front does not depend on the limit.
  intro tokens
  unfold conditional
  split
  · exact .refl _
  · rename_i tested inside _
    -- The alternative is looked for only behind a region that was read.
    rcases braced_narrows narrows inside with same | ⟨line, tooDeep⟩
    · simp only [same]
      split
      · exact .refl _
      · rename_i afterYes _
        rcases alternative_narrows narrows narrowsChained afterYes with same | tooDeep
        · simp [same]
        · exact .inr tooDeep
    · right
      exact ⟨line, by simp [tooDeep]⟩

end Parts

section Bodies

variable {room wider : Nat} {inner inner' : BodyParsers}

/-- The readers of parts of a body that are narrower forms of others. -/
structure NarrowsBodies (inner inner' : BodyParsers) : Prop where
  statement : NarrowsParts inner.statement inner'.statement
  conditional : NarrowsParts inner.conditional inner'.conditional
  selection : Narrows inner.selection inner'.selection
  block : Narrows inner.block inner'.block

/-- Expressions are cut short by a narrower limit. -/
theorem expression_narrows (enough : room ≤ wider) :
    Narrows (Source.expression room) (Source.expression wider) :=
  -- Expressions and operands were dealt with together.
  (exprParsers_narrows enough).1

/-- A statement that holds no others is cut short with the expressions in it. -/
theorem simpleStatement_narrows (enough : room ≤ wider) :
    Narrows (simpleStatement room) (simpleStatement wider) := by
  have narrows := expression_narrows enough
  -- Only the expressions of a statement depend on the limit.
  have declaration : Narrows (localDeclaration room) (localDeclaration wider) := by
    intro tokens
    refine (CutShort.refl _).bind fun _ => (CutShort.refl _).bind fun _ => ?_
    refine .ite (fun _ => ?_) fun _ => .refl _
    exact (narrows _).bind fun _ => (CutShort.refl _).bind fun _ => .refl _
  -- The symbol of an assignment is looked for behind the target.
  have assigned : Narrows (assignment room) (assignment wider) := by
    intro tokens
    refine (narrows _).bind fun _ => ?_
    dsimp only
    split
    · refine .ite (fun _ => ?_) fun _ => .refl _
      exact (narrows _).bind fun _ => (CutShort.refl _).bind fun _ => .refl _
    · exact .refl _
  -- The first words decide between them, and they are there under both limits.
  intro tokens
  unfold simpleStatement
  split
  · exact .refl _
  · exact .refl _
  · split
    · exact .ite (fun _ => declaration _) fun _ => assigned _
    · exact assigned _

/-- An `if` is cut short with its condition and with either of its blocks. -/
theorem selection_narrows (enough : room ≤ wider) (narrows : NarrowsBodies inner inner') :
    Narrows (selection room inner) (selection wider inner') := by
  -- The keyword and the parentheses are the same, and what is between and behind them is narrowed.
  intro tokens
  refine (CutShort.refl _).bind fun _ => (expression_narrows enough _).bind fun _ => ?_
  refine (CutShort.refl _).bind fun _ => (narrows.block _).bind fun _ => ?_
  refine .ite (fun _ => .ite (fun _ => ?_) fun _ => ?_) fun _ => .refl _
  · exact (narrows.selection _).bind fun _ => .refl _
  · exact (narrows.block _).bind fun _ => .refl _

/-- A statement is cut short with whatever it holds. -/
theorem statement_narrows (enough : room ≤ wider) (narrows : NarrowsBodies inner inner') :
    NarrowsParts (statement room inner) (statement wider inner') := by
  -- The first word decides which kind of statement is read.
  intro tokens
  unfold statement
  split
  · exact conditional_narrows _ narrows.statement narrows.conditional _
  · exact conditional_narrows _ narrows.statement narrows.conditional _
  · exact .ofResult (selection_narrows enough narrows _)
  · exact .ofResult (simpleStatement_narrows enough _)

/-- Parts of bodies are cut short by a narrower limit. -/
theorem bodyParsers_narrows (enough : room ≤ wider) :
    NarrowsBodies (bodyParsers room) (bodyParsers wider) := by
  induction room generalizing wider with
  | zero =>
    -- Without a level every reader is cut short at once.
    exact ⟨fun _ => .inr ⟨_, rfl⟩, fun _ => .inr ⟨_, rfl⟩, fun _ => .inr ⟨_, rfl⟩,
      fun _ => .inr ⟨_, rfl⟩⟩
  | succ room ih =>
    obtain ⟨wider, rfl⟩ : ∃ less, wider = less + 1 := ⟨wider - 1, by omega⟩
    -- What is nested has a level less on both sides.
    have inner := ih (Nat.le_of_succ_le_succ enough)
    have enough : room ≤ wider := Nat.le_of_succ_le_succ enough
    exact ⟨statement_narrows enough inner,
      conditional_narrows _ inner.statement inner.conditional, selection_narrows enough inner,
      fun _ => (braced_narrows (statement_narrows enough inner) _).toResult⟩

end Bodies

section Units

variable {room wider : Nat}

/-- A top-level part is cut short with the body in it. -/
theorem plainItem_narrows (enough : room ≤ wider) : Narrows (plainItem room) (plainItem wider) := by
  -- Stages are the only parts with something nested inside.
  have stage : ∀ which, Narrows (stageItem room which) (stageItem wider which) :=
    fun _ _ => ((bodyParsers_narrows enough).block _).bind fun _ => .refl _
  intro tokens
  unfold plainItem
  split
  case h_5 | h_6 => exact stage _ _
  all_goals exact .refl _

/-- A top-level part or a conditional among them is cut short with whatever it holds. -/
theorem item_narrows (enough : room ≤ wider) {inner inner' : ItemParsers}
    (narrows : NarrowsParts inner.item inner'.item)
    (narrowsConditional : NarrowsParts inner.conditional inner'.conditional) :
    NarrowsParts (item room inner) (item wider inner') := by
  -- A conditional is narrowed with its parts, and a single part is read as a statement is.
  intro tokens
  refine .ite (fun _ => conditional_narrows _ narrows narrowsConditional _) fun _ => .ofResult ?_
  rcases plainItem_narrows enough tokens with same | ⟨line, tooDeep⟩
  · rw [same]
    exact .refl _
  · exact .inr ⟨line, by simp [tooDeep, Except.map]⟩

/-- Nested top-level parts are cut short by a narrower limit. -/
theorem itemParsers_narrows (enough : room ≤ wider) :
    NarrowsParts (itemParsers room).item (itemParsers wider).item ∧
      NarrowsParts (itemParsers room).conditional (itemParsers wider).conditional := by
  -- With no room at all everything is cut short, and otherwise both sides lose one level.
  induction room generalizing wider with
  | zero => exact ⟨fun _ => .inr ⟨_, rfl⟩, fun _ => .inr ⟨_, rfl⟩⟩
  | succ room ih =>
    obtain ⟨wider, rfl⟩ : ∃ less, wider = less + 1 := ⟨wider - 1, by omega⟩
    obtain ⟨inner, conditional⟩ := ih (Nat.le_of_succ_le_succ enough)
    exact ⟨item_narrows (by omega) inner conditional, conditional_narrows _ inner conditional⟩

/-- A source is read the same under a narrower limit, unless it is nested too deeply for it. -/
theorem sourceItems_narrows (enough : room ≤ wider) :
    NarrowsParts (sourceItems room) (sourceItems wider) := by
  obtain ⟨inner, conditional⟩ := itemParsers_narrows enough
  have narrows := item_narrows enough inner conditional
  -- The number of parts is limited by the words, which are the same on both sides.
  have untilEnd : ∀ limit, NarrowsParts (untilEnd (item room (itemParsers room)) limit)
      (untilEnd (item wider (itemParsers wider)) limit) := by
    intro limit
    induction limit with
    | zero => exact fun _ => .refl _
    | succ limit ih => exact fun _ => .ite (fun _ => .refl _) fun _ => (narrows _).andThen ih
  exact fun tokens => untilEnd _ _

end Units

end Shading.Grammar

import Shading.Proofs.Grammar.Limits
import Shading.Proofs.Grammar.UnitSound
import Shading.Proofs.Selection.Kept

/-! What a reading completed before it was cut short stands in front of the words that are kept. -/

namespace Shading.Selection

open Source Grammar

variable {isDefined : String → Bool} {braces : List Brace} {room : Nat} {tokens rest : List Token}

/-- The active parts stand in front of what the scanner leaves of the words. -/
def InFront (isDefined : String → Bool) (room : Nat) (items : List SourceItem) (state : State)
    (tokens : List Token) : Prop :=
  ∃ after, ItemsSpan room (activeItems isDefined items) (selectFrom isDefined state tokens) after

/-- Nothing stands in front of all words. -/
theorem inFront_nil (state : State) : InFront isDefined room [] state tokens :=
  -- No word is taken.
  ⟨_, .none⟩

/-- No top-level part starts with an `else`, wherever its reading is cut short. -/
theorem noElse_of_item {inner : ItemParsers}
    (tooDeep : IsTooDeep (Source.item room inner tokens).rest) : NoElse tokens := by
  -- An `else` starts no part, and is refused for another reason than the nesting.
  intro starts
  obtain ⟨line, after, rfl⟩ := headKeyword?_eq_some.mp starts
  obtain ⟨_, fault⟩ := tooDeep
  simp [Source.item, startsConditional, plainItem, unexpected, Except.map, Outcome.ofResult,
    Outcome.fault] at fault

/-- Parts that are cut short are so within the first one or after it. -/
theorem andThen_tooDeep {α : Type} {outcome : Outcome α} {next : PartsParser α}
    (tooDeep : IsTooDeep (outcome.andThen next).rest) :
    (IsTooDeep outcome.rest ∧ outcome.andThen next = outcome) ∨
      ∃ between, outcome.rest = .ok between ∧ IsTooDeep (next between).rest ∧
        (outcome.andThen next).completed = outcome.completed ++ (next between).completed := by
  -- A fault of the first part leaves nothing for the others.
  rcases outcome with ⟨completed, error | between⟩
  · exact .inl ⟨tooDeep, rfl⟩
  · exact .inr ⟨between, rfl, tooDeep, rfl⟩

/-- No part starts with an `else`, wherever its reading or that of the parts after it is cut short. -/
theorem noElse_of_andThen {next : PartsParser SourceItem}
    (tooDeep : IsTooDeep ((Source.item room (itemParsers room) tokens).andThen next).rest) :
    NoElse tokens := by
  -- Either the first part is cut short, or it was read and starts as parts do.
  rcases andThen_tooDeep tooDeep with ⟨first, -⟩ | ⟨between, readFirst, -⟩
  · exact noElse_of_item first
  · obtain ⟨i, -, spans⟩ := item_sound (itemParsers_sound room) readFirst
    exact spans.starts.noElse

/-- Parts up to a closing brace do not start with an `else`, wherever they are cut short. -/
theorem noElse_of_untilBrace {limit : Nat}
    (tooDeep : IsTooDeep (untilBrace (Source.item room (itemParsers room)) limit tokens).rest) :
    NoElse tokens := by
  obtain ⟨line, fault⟩ := tooDeep
  cases limit with
  | zero =>
    -- Without rounds there is another fault than the nesting.
    simp only [untilBrace] at fault
    split at fault <;> simp [unexpected] at fault
  | succ limit =>
    simp only [untilBrace] at fault
    split at fault
    · simp at fault
    · split at fault
      · simp [unexpected] at fault
      · -- A part that is read or cut short does not start with an `else`.
        exact noElse_of_andThen ⟨line, fault⟩

/-- Parts up to the end of a source do not start with an `else`, wherever they are cut short. -/
theorem noElse_of_untilEnd {limit : Nat}
    (tooDeep : IsTooDeep (untilEnd (Source.item room (itemParsers room)) limit tokens).rest) :
    NoElse tokens := by
  obtain ⟨line, fault⟩ := tooDeep
  cases limit with
  | zero => simp [untilEnd] at fault
  -- The part that is first is cut short, or it is read and starts as parts do.
  | succ limit =>
    simp only [untilEnd] at fault
    split at fault
    · simp at fault
    · exact noElse_of_andThen ⟨line, fault⟩

/-- What nested readers complete before they are cut short stands in front. -/
structure Fronts (isDefined : String → Bool) (room : Nat) (inner : ItemParsers) : Prop where
  region : ∀ limit tokens, IsTooDeep (untilBrace inner.item limit tokens).rest →
    ∀ wider, room ≤ wider → ∀ braces keptElse,
      InFront isDefined wider (untilBrace inner.item limit tokens).completed
        ⟨.text, .region true keptElse :: braces⟩ tokens
  conditional : ∀ tokens, startsConditional tokens = true →
    IsTooDeep (inner.conditional tokens).rest → ∀ wider, room ≤ wider → ∀ braces,
      InFront isDefined wider (inner.conditional tokens).completed ⟨.otherwise true, braces⟩ tokens

/-- What a region completes before it is cut short stands in front, after its opening brace. -/
theorem braced_front (fronts : Fronts isDefined room (itemParsers room))
    (tooDeep : IsTooDeep (braced (itemParsers room).item tokens).rest) :
    ∃ line inside, tokens = sign .leftBrace line :: inside ∧ ∀ wider, room ≤ wider →
      ∀ braces keptElse, InFront isDefined wider (braced (itemParsers room).item tokens).completed
        ⟨.text, .region true keptElse :: braces⟩ inside := by
  unfold braced at tooDeep ⊢
  cases opened : expect .leftBrace tokens with
  -- A brace that is missing is no fault of the nesting.
  | error error =>
    obtain ⟨line, fault⟩ := tooDeep
    simp only [opened, Outcome.fault, Except.error.injEq] at fault
    unfold expect at opened
    split at opened <;> simp_all [unexpected]
  | ok inside =>
    obtain ⟨line, rfl⟩ := expect_eq_ok.mp opened
    simp only [opened] at tooDeep ⊢
    -- Inside the braces it is for the parts of the region to be in front.
    exact ⟨line, inside, rfl, fronts.region _ inside tooDeep⟩

/-- What an alternative completes before it is cut short stands in front of what is kept of it. -/
theorem alternative_front (fronts : Fronts isDefined room (itemParsers room))
    (tooDeep : IsTooDeep
      (alternative (itemParsers room).item (itemParsers room).conditional tokens).rest)
    {wider : Nat} (enough : room ≤ wider) (braces : List Brace) :
    InFront isDefined wider
      (alternative (itemParsers room).item (itemParsers room).conditional tokens).completed
      ⟨.closed true, braces⟩ tokens := by
  by_cases otherwise : headKeyword? tokens = some .otherwise
  · obtain ⟨line, after, rfl⟩ := headKeyword?_eq_some.mp otherwise
    -- Behind `else` either a conditional or a region is cut short, and each is in front there.
    cases test : startsConditional after with
    | true =>
      rw [alternative_chained _ test] at tooDeep ⊢
      rw [InFront, selectFrom_else]
      exact fronts.conditional after test tooDeep wider enough braces
    | false =>
      rw [alternative_braced _ test] at tooDeep ⊢
      obtain ⟨line', inside, rfl, front⟩ := braced_front fronts tooDeep
      rw [InFront, selectFrom_otherwise]
      exact front wider enough braces false
  · -- Without an `else` there is no alternative.
    rw [alternative_without otherwise]
    exact inFront_nil _

/-- What a conditional completes before it is cut short stands in front of what is kept of it. -/
theorem conditional_front (fronts : Fronts isDefined room (itemParsers room))
    (starts : startsConditional tokens = true)
    (tooDeep : IsTooDeep (Source.conditional .choice (itemParsers room).item
      (itemParsers room).conditional tokens).rest)
    {wider : Nat} (enough : room ≤ wider) (braces : List Brace) :
    InFront isDefined wider (Source.conditional .choice (itemParsers room).item
      (itemParsers room).conditional tokens).completed ⟨.otherwise true, braces⟩ tokens := by
  obtain ⟨present, line, after, rfl⟩ := startsConditional_iff.mp starts
  unfold Source.conditional at tooDeep ⊢
  cases readGuard : Source.guard (word (testKeyword present).spelling line :: after) with
  -- Nothing is completed before the test.
  | error error =>
    exact inFront_nil _
  | ok read =>
    obtain ⟨tested, afterTest⟩ := read
    obtain ⟨key, line', rfl, free, rfl⟩ := guard_eq_ok.mp readGuard
    simp only [readGuard] at tooDeep ⊢
    cases readYes : (braced (itemParsers room).item afterTest).rest with
    | error error =>
      simp only [readYes] at tooDeep ⊢
      obtain ⟨line'', inside, rfl, front⟩ := braced_front fronts (by rw [readYes]; exact tooDeep)
      rw [InFront, selectFrom_test, activeItems_choice]
      cases holds : Shading.Guard.holds isDefined _
      · exact ⟨_, .none⟩
      · exact front wider enough braces false
    | ok afterYes =>
      simp only [readYes] at tooDeep ⊢
      obtain ⟨line'', inside, rfl, readInside, completed⟩ := braced_rest_eq_ok.mp readYes
      -- The first region was read to its end, so the fault is in the alternative.
      have spansYes := itemRegion_sound (itemParsers_sound room) _ readInside
      rw [← completed] at spansYes
      rw [InFront, selectFrom_test, activeItems_choice]
      cases holds : Shading.Guard.holds isDefined _
      · -- The region is dropped, so that what follows it is in front.
        simp only [Bool.and_false, Bool.not_false, Bool.and_true, Bool.false_eq_true, if_false]
        rw [items_dropped spansYes braces true]
        exact alternative_front fronts tooDeep enough braces
      · exact ⟨_, items_kept isDefined spansYes wider enough braces false⟩

/-- What a top-level part completes before it is cut short stands in front. -/
theorem item_front (fronts : Fronts isDefined room (itemParsers room))
    (tooDeep : IsTooDeep (Source.item room (itemParsers room) tokens).rest)
    {wider : Nat} (enough : room ≤ wider) (keeps : kept braces = true) :
    InFront isDefined wider (Source.item room (itemParsers room) tokens).completed
      ⟨.text, braces⟩ tokens := by
  unfold Source.item at tooDeep ⊢
  split at tooDeep
  · -- A conditional stands in front with what its regions completed.
    rename_i starts
    rw [if_pos starts, InFront, selectFrom_starts starts, keeps]
    exact conditional_front fronts starts tooDeep enough braces
  · rename_i noTest
    rw [if_neg noTest]
    obtain ⟨line, fault⟩ := tooDeep
    -- A part that is not conditional is completed as a whole or not at all.
    cases reading : plainItem room tokens with
    | error error => exact inFront_nil _
    | ok => simp [reading, Except.map, Outcome.ofResult] at fault

/-- What is completed between braces before the reading is cut short stands in front. -/
theorem region_front (fronts : Fronts isDefined room (itemParsers room)) (limit : Nat)
    (tooDeep : IsTooDeep (untilBrace (Source.item room (itemParsers room)) limit tokens).rest)
    {wider : Nat} (enough : room ≤ wider) (braces : List Brace) (keptElse : Bool) :
    InFront isDefined wider
      (untilBrace (Source.item room (itemParsers room)) limit tokens).completed
      ⟨.text, .region true keptElse :: braces⟩ tokens := by
  -- By the limit of the loop.
  induction limit generalizing tokens with
  | zero =>
    obtain ⟨line, fault⟩ := tooDeep
    simp only [untilBrace] at fault
    -- Without rounds there is another fault than the nesting.
    split at fault <;> simp [unexpected] at fault
  | succ limit ih =>
    simp only [untilBrace] at tooDeep ⊢
    split
    · exact inFront_nil _
    · split
      · exact inFront_nil _
      · rename_i noBrace noEnd
        rw [if_neg noBrace, if_neg noEnd] at tooDeep
        -- The first part is cut short itself, or it is read and one behind it is.
        rcases andThen_tooDeep tooDeep with ⟨first, same⟩ | ⟨between, readFirst, more, completed⟩
        · rw [same]
          exact item_front fronts first enough rfl
        · obtain ⟨i, single, spans⟩ := item_sound (itemParsers_sound room) readFirst
          obtain ⟨after, spansMore⟩ := ih more
          have keptFirst := items_kept isDefined spans (noElse_of_untilBrace more)
            wider enough (.region true keptElse :: braces) rfl
          rw [completed, single]
          exact ⟨after, itemsSpan_cons isDefined keptFirst spansMore⟩

/-- Whatever is completed before the nesting ends the reading stands in front. -/
theorem itemParsers_front (room : Nat) : Fronts isDefined room (itemParsers room) := by
  induction room with
  -- Without room nothing is completed at all.
  | zero =>
    constructor
    · intro limit tokens _ wider _ braces keptElse
      have nothing : (untilBrace (itemParsers 0).item limit tokens).completed = [] := by
        cases limit <;> grind [untilBrace, itemParsers, Outcome.andThen, tooDeep]
      rw [nothing]
      exact inFront_nil _
    · exact fun _ _ _ _ _ _ => inFront_nil _
  | succ room ih =>
    -- With one more level, the readers of the level below are in front by induction.
    exact ⟨fun limit tokens cut wider enough braces keptElse =>
        region_front ih limit cut (by omega) braces keptElse,
      fun tokens starts cut wider enough braces =>
        conditional_front ih starts cut (by omega) braces⟩

/-- Whatever a source completes before the nesting ends its reading stands in front. -/
theorem sourceItems_front (isDefined : String → Bool)
    (tooDeep : IsTooDeep (sourceItems room tokens).rest) :
    InFront isDefined room (sourceItems room tokens).completed ⟨.text, []⟩ tokens := by
  -- By the limit of the loop, for all words at once.
  unfold sourceItems at tooDeep ⊢
  generalize tokens.length = limit at tooDeep ⊢
  induction limit generalizing tokens with
  | zero => exact inFront_nil _
  | succ limit ih =>
    simp only [untilEnd] at tooDeep ⊢
    split
    · exact inFront_nil _
    · rename_i notEnd
      rw [if_neg notEnd] at tooDeep
      -- As in a region, but what stands behind a source is its end.
      rcases andThen_tooDeep tooDeep with ⟨first, same⟩ | ⟨between, readFirst, more, completed⟩
      · rw [same]
        exact item_front (itemParsers_front room) first (Nat.le_refl _) rfl
      · obtain ⟨i, single, spans⟩ := item_sound (itemParsers_sound room) readFirst
        obtain ⟨after, spansMore⟩ := ih more
        have keptFirst := items_kept isDefined spans (noElse_of_untilEnd more) room (Nat.le_refl _) [] rfl
        rw [completed, single]
        exact ⟨after, itemsSpan_cons isDefined keptFirst spansMore⟩

end Shading.Selection

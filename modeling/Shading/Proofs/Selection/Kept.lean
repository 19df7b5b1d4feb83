import Shading.Proofs.Selection.Dropped
import Shading.Proofs.Selection.Unconditional

/-! Where words are kept, what is left of a phrase is the same phrase without its conditionals. -/

namespace Shading.Selection

open Source Grammar

variable (isDefined : String → Bool) {braces : List Brace} {room : Nat} {tokens rest : List Token}

/-- All of an expression is left. -/
theorem expr_kept {phrase : ExprPhrase} (spans : phrase.Spans room tokens rest)
    (keeps : kept braces = true) :
    phrase.Spans room (selectFrom isDefined ⟨.text, braces⟩ tokens)
      (selectFrom isDefined ⟨.text, braces⟩ rest) := by
  have plain := @selectFrom_plain_kept isDefined braces keeps
  -- All words of an expression are plain, and plain words are kept where they stand.
  induction spans with
  | plain _ ih => exact .plain ih
  | ternary _ _ _ condition yes no =>
    rw [plain (by simp)] at condition yes
    exact .ternary condition yes no
  | single _ ih => exact .single ih
  | tighter _ ih => exact .tighter ih
  | join _ _ fits left right =>
    rw [plain (by simp)] at left
    exact .join left right fits
  | signed _ ih =>
    rw [plain (by simp)]
    exact .signed ih
  | unsigned _ ih => exact .unsigned ih
  | bare _ ih => exact .bare ih
  -- The word in front of the parenthesis is plain, be it a type or a name.
  | construct _ ih =>
    rw [plain (by simp), plain (by simp)]
    exact .construct ih
  | call _ _ callee arguments =>
    rw [plain (by simp)] at callee
    exact .call callee arguments
  | field _ free object =>
    rw [plain (by simp), plain (by simp [free])] at object
    exact .field object free
  | index _ _ object position =>
    rw [plain (by simp)] at object position
    exact .index object position
  | int =>
    rw [plain (by simp)]
    exact .int
  | float =>
    rw [plain (by simp)]
    exact .float
  | bool =>
    rw [plain (by simp)]
    exact .bool
  -- A name that is not reserved is none of the keywords that a selection looks at.
  | named free untyped =>
    rw [plain (by simp [free])]
    exact .named free untyped
  | parenthesised _ ih =>
    rw [plain (by simp)] at ih ⊢
    exact .parenthesised ih
  | noArguments =>
    rw [plain (by simp)]
    exact .noArguments
  | firstArgument _ _ first more => exact .firstArgument first more
  | endArguments =>
    rw [plain (by simp)]
    exact .endArguments
  | nextArgument _ _ next more =>
    rw [plain (by simp)]
    exact .nextArgument next more

/-- The words begin with statements, one after the other. -/
abbrev StatementsSpan (room : Nat) : List SourceStatement → List Token → List Token → Prop :=
  Sequence fun s => (BodyPhrase.statement s).Spans room

/-- What the scanner leaves of a phrase of a body where it keeps words, within wider limits as well. -/
def BodyKept (isDefined : String → Bool) (room : Nat) : BodyPhrase → List Token → List Token → Prop
  | .statement s, tokens, rest =>
    NoElse rest → ∀ wider, room ≤ wider → ∀ braces, kept braces = true →
      StatementsSpan wider (toSourceAll (s.resolve isDefined))
        (selectFrom isDefined ⟨.text, braces⟩ tokens) (selectFrom isDefined ⟨.text, braces⟩ rest)
  | .selection s, tokens, rest =>
    ∃ t, s.resolve isDefined = [t] ∧ ∀ wider, room ≤ wider → ∀ braces, kept braces = true →
      (BodyPhrase.selection t.toSource).Spans wider (selectFrom isDefined ⟨.text, braces⟩ tokens)
        (selectFrom isDefined ⟨.text, braces⟩ rest)
  | .block ss, tokens, rest =>
    ∀ wider, room ≤ wider → ∀ braces, kept braces = true →
      (BodyPhrase.block (toSourceAll (resolveAll isDefined ss))).Spans wider
        (selectFrom isDefined ⟨.text, braces⟩ tokens) (selectFrom isDefined ⟨.text, braces⟩ rest)
  | .blockEnd ss, tokens, rest =>
    ∀ wider, room ≤ wider → ∀ braces, kept braces = true →
      (BodyPhrase.blockEnd (toSourceAll (resolveAll isDefined ss))).Spans wider
        (selectFrom isDefined ⟨.text, .plain :: braces⟩ tokens)
        (selectFrom isDefined ⟨.text, braces⟩ rest)
  | .region ss, tokens, rest =>
    ∀ wider, room ≤ wider → ∀ braces keptElse,
      StatementsSpan wider (toSourceAll (resolveAll isDefined ss))
        (selectFrom isDefined ⟨.text, .region true keptElse :: braces⟩ tokens)
        (selectFrom isDefined ⟨.closed keptElse, braces⟩ rest)
  | .conditional s, tokens, rest =>
    NoElse rest → ∀ wider, room ≤ wider → ∀ braces,
      StatementsSpan wider (toSourceAll (s.resolve isDefined))
        (selectFrom isDefined ⟨.otherwise true, braces⟩ tokens)
        (selectFrom isDefined ⟨.text, braces⟩ rest)
  | .alternative ss, tokens, rest =>
    NoElse rest → ∀ wider, room ≤ wider → ∀ braces,
      StatementsSpan wider (toSourceAll (resolveAll isDefined ss))
        (selectFrom isDefined ⟨.closed true, braces⟩ tokens)
        (selectFrom isDefined ⟨.text, braces⟩ rest)

/-- The condition of an `if` is left with its parentheses. -/
theorem condition_kept {condition : Expr} {line line' line'' : Nat}
    (spans : (ExprPhrase.expression condition).Spans room tokens (sign .rightParen line'' :: rest))
    (keeps : kept braces = true) {wider : Nat} (enough : room ≤ wider) :
    (ExprPhrase.expression condition).Spans wider (selectFrom isDefined ⟨.text, braces⟩ tokens)
        (sign .rightParen line'' :: selectFrom isDefined ⟨.text, braces⟩ rest) ∧
      selectFrom isDefined ⟨.text, braces⟩
          (word (Keyword.spelling .selection) line :: sign .leftParen line' :: tokens) =
        word (Keyword.spelling .selection) line :: sign .leftParen line' ::
          selectFrom isDefined ⟨.text, braces⟩ tokens := by
  -- All three words around the condition are plain.
  constructor
  · have left := expr_kept isDefined spans keeps
    rw [selectFrom_plain_kept keeps (by simp)] at left
    exact left.mono enough
  · rw [selectFrom_plain_kept keeps (isPlain_keyword (by decide) _),
      selectFrom_plain_kept keeps (by simp)]

/-- The phrases of a body are left without their conditionals. -/
theorem body_kept {phrase : BodyPhrase} (spans : phrase.Spans room tokens rest) :
    BodyKept isDefined room phrase tokens rest := by
  -- Along the phrase: what is kept of it spans the statements that it resolves to.
  induction spans with
  | declare free =>
    intro _ wider _ braces keeps
    rw [selectFrom_plain_kept keeps (by simp), selectFrom_plain_kept keeps (by simp [free]),
      selectFrom_plain_kept keeps (by simp)]
    exact .single (.declare free)
  | initialise free initial =>
    intro _ wider enough braces keeps
    have left := expr_kept isDefined initial keeps
    rw [selectFrom_plain_kept keeps (by simp)] at left
    rw [selectFrom_plain_kept keeps (by simp), selectFrom_plain_kept keeps (by simp [free]),
      selectFrom_plain_kept keeps (by simp)]
    exact .single (.initialise free (left.mono enough))
  | assign target assignable value =>
    intro _ wider enough braces keeps
    have leftTarget := expr_kept isDefined target keeps
    have leftValue := expr_kept isDefined value keeps
    rw [selectFrom_plain_kept keeps (by simp)] at leftTarget leftValue
    exact .single (.assign (leftTarget.mono enough) assignable (leftValue.mono enough))
  | evaluate e =>
    intro _ wider enough braces keeps
    have left := expr_kept isDefined e keeps
    rw [selectFrom_plain_kept keeps (by simp)] at left
    exact .single (.evaluate (left.mono enough))
  | discard =>
    intro _ wider _ braces keeps
    rw [selectFrom_plain_kept keeps (isPlain_keyword (by decide) _),
      selectFrom_plain_kept keeps (by simp)]
    exact .single .discard
  | leave =>
    intro _ wider _ braces keeps
    rw [selectFrom_plain_kept keeps (isPlain_keyword (by decide) _),
      selectFrom_plain_kept keeps (by simp)]
    exact .single .leave
  | selected _ ih =>
    intro _ wider enough braces keeps
    obtain ⟨t, resolved, left⟩ := ih
    rw [resolved]
    exact .single (.selected (left wider enough braces keeps))
  | tested spans ih =>
    intro noElse wider enough braces keeps
    rw [selectFrom_starts spans.startsConditional, keeps]
    exact ih noElse wider enough braces
  | ifThen condition _ yes =>
    refine ⟨_, rfl, ?_⟩
    intro wider enough braces keeps
    obtain ⟨leftCondition, opened⟩ := condition_kept isDefined condition keeps enough
    rw [opened]
    exact .ifThen leftCondition (yes wider enough braces keeps)
  | ifThenElse condition _ _ yes no =>
    refine ⟨_, rfl, ?_⟩
    intro wider enough braces keeps
    obtain ⟨leftCondition, opened⟩ := condition_kept isDefined condition keeps enough
    have leftYes := yes wider enough braces keeps
    rw [selectFrom_plain_kept keeps (isPlain_keyword (by decide) _)] at leftYes
    rw [opened]
    exact .ifThenElse leftCondition leftYes (no wider enough braces keeps)
  -- An `if` behind `else` resolves to a single statement, which is one level deeper.
  | ifElseIf condition _ _ yes no =>
    obtain ⟨t, resolved, left⟩ := no
    refine ⟨_, rfl, ?_⟩
    intro wider enough braces keeps
    obtain ⟨wider, rfl⟩ : ∃ less, wider = less + 1 := ⟨wider - 1, by omega⟩
    obtain ⟨leftCondition, opened⟩ := condition_kept isDefined condition keeps enough
    have leftYes := yes (wider + 1) enough braces keeps
    rw [selectFrom_plain_kept keeps (isPlain_keyword (by decide) _)] at leftYes
    rw [opened, Statement.toSource, resolveAll_single _ resolved]
    exact .ifElseIf leftCondition leftYes (left wider (by omega) braces keeps)
  | conditional free spansYes spansNo yes no =>
    intro noElse wider enough braces
    rw [selectFrom_test, SourceStatement.resolve]
    cases holds : Shading.Guard.holds isDefined _
    · -- The region is dropped, so that what follows it decides.
      simp only [Bool.and_false, Bool.not_false, Bool.and_true, Bool.false_eq_true, if_false]
      rw [body_dropped spansYes braces true]
      exact no noElse wider enough braces
    · simp only [Bool.and_true, Bool.not_true, Bool.and_false, if_true]
      rw [← body_dropped spansNo noElse braces]
      exact yes wider enough braces false
  -- Braces of blocks are kept with what they enclose.
  | block _ ih =>
    intro wider enough braces keeps
    obtain ⟨wider, rfl⟩ : ∃ less, wider = less + 1 := ⟨wider - 1, by omega⟩
    rw [selectFrom_open, keeps]
    exact .block (ih wider (by omega) braces keeps)
  | endBlock =>
    intro wider _ braces keeps
    rw [selectFrom_close, keeps]
    exact .endBlock
  | nextInBlock _ spansMore first more =>
    intro wider enough braces keeps
    have leftFirst := first (noElse_of_blockEnd spansMore) wider enough (.plain :: braces) keeps
    rw [resolveAll, toSourceAll_append]
    exact leftFirst.blockEnd (more wider enough braces keeps)
  | endRegion =>
    intro wider _ braces keptElse
    rw [selectFrom_closeRegion]
    exact .none
  -- Regions are left without their braces, so what they hold is joined to what is around them.
  | nextInRegion _ spansMore first more =>
    intro wider enough braces keptElse
    have leftFirst := first (noElse_of_region spansMore) wider (by omega)
      (.region true keptElse :: braces) rfl
    rw [resolveAll, toSourceAll_append]
    exact leftFirst.append (more wider enough braces keptElse)
  | without =>
    intro noElse wider _ braces
    rw [selectFrom_closed noElse]
    exact .none
  | otherwise _ ih =>
    intro noElse wider enough braces
    have left := ih wider enough braces false
    rw [selectFrom_closed noElse] at left
    rw [selectFrom_otherwise]
    exact left
  | chained _ ih =>
    intro noElse wider enough braces
    rw [selectFrom_else]
    simpa [resolveAll] using ih noElse wider (by omega) braces

/-- The components of a layout are left with the closing brace. -/
theorem components_kept {named : List (String × Nat)} (spans : ComponentsSpan named tokens rest)
    (keeps : kept braces = true) :
    ComponentsSpan named (selectFrom isDefined ⟨.text, .plain :: braces⟩ tokens)
      (selectFrom isDefined ⟨.text, braces⟩ rest) := by
  -- A plain brace keeps what it encloses where what is around it is kept.
  have keepsInside : kept (.plain :: braces) = true := keeps
  induction spans with
  | none =>
    rw [selectFrom_close, keeps]
    exact .none
  -- The closing brace ends the plain brace, and not the region around it.
  | last free =>
    rw [selectFrom_plain_kept keepsInside (by simp [free]), selectFrom_close, keeps]
    exact .last free
  | next free _ ih =>
    rw [selectFrom_plain_kept keepsInside (by simp [free]),
      selectFrom_plain_kept keepsInside (by simp)]
    exact .next free ih

/-- A top-level part is left with its body resolved. -/
theorem plainItem_kept {item : Item (List SourceStatement)}
    (spans : PlainSpan room item tokens rest) (keeps : kept braces = true) {wider : Nat}
    (enough : room ≤ wider) :
    PlainSpan wider (item.mapBody (resolveAll isDefined)).toSource
      (selectFrom isDefined ⟨.text, braces⟩ tokens)
      (selectFrom isDefined ⟨.text, braces⟩ rest) := by
  -- Only the body of a stage has something to resolve.
  cases spans with
  | @declaration role _ _ _ _ _ _ _ free =>
    rw [selectFrom_plain_kept keeps (isPlain_keyword (by cases role <;> decide) _),
      selectFrom_plain_kept keeps (by simp), selectFrom_plain_kept keeps (by simp [free]),
      selectFrom_plain_kept keeps (by simp)]
    exact .declaration free
  | layout components =>
    rw [selectFrom_plain_kept keeps (isPlain_keyword (by decide) _), selectFrom_open, keeps]
    exact .layout (components_kept isDefined components keeps)
  -- The keyword is kept, and with it the body without its conditionals.
  | @stage which _ _ _ _ body =>
    rw [selectFrom_plain_kept keeps (isPlain_keyword (by cases which <;> decide) _)]
    exact .stage (body_kept isDefined body wider enough braces keeps)

/-- The words begin with the given top-level parts, one after the other. -/
abbrev ItemsSpan (room : Nat) (items : List (Item (List Statement))) :
    List Token → List Token → Prop :=
  Sequence (PlainSpan room) (items.map Item.toSource)

/-- What the scanner leaves of top-level parts where it keeps words, within wider limits as well. -/
def ItemsKept (isDefined : String → Bool) (room : Nat) : ItemPhrase → List Token → List Token → Prop
  | .item i, tokens, rest =>
    NoElse rest → ∀ wider, room ≤ wider → ∀ braces, kept braces = true →
      ItemsSpan wider (activeItems isDefined [i]) (selectFrom isDefined ⟨.text, braces⟩ tokens)
        (selectFrom isDefined ⟨.text, braces⟩ rest)
  | .region is, tokens, rest =>
    ∀ wider, room ≤ wider → ∀ braces keptElse,
      ItemsSpan wider (activeItems isDefined is)
        (selectFrom isDefined ⟨.text, .region true keptElse :: braces⟩ tokens)
        (selectFrom isDefined ⟨.closed keptElse, braces⟩ rest)
  | .conditional i, tokens, rest =>
    NoElse rest → ∀ wider, room ≤ wider → ∀ braces,
      ItemsSpan wider (activeItems isDefined [i])
        (selectFrom isDefined ⟨.otherwise true, braces⟩ tokens)
        (selectFrom isDefined ⟨.text, braces⟩ rest)
  | .alternative is, tokens, rest =>
    NoElse rest → ∀ wider, room ≤ wider → ∀ braces,
      ItemsSpan wider (activeItems isDefined is) (selectFrom isDefined ⟨.closed true, braces⟩ tokens)
        (selectFrom isDefined ⟨.text, braces⟩ rest)
  | .items is, tokens, rest =>
    ItemsSpan room (activeItems isDefined is) (select isDefined tokens) (select isDefined rest)

/-- Top-level parts one after the other are those of the first and those of the others. -/
theorem itemsSpan_cons {i : SourceItem} {is : List SourceItem} {between : List Token}
    (first : ItemsSpan room (activeItems isDefined [i]) tokens between)
    (more : ItemsSpan room (activeItems isDefined is) between rest) :
    ItemsSpan room (activeItems isDefined (i :: is)) tokens rest := by
  -- What is active in the list is what is active in its parts, one after the other.
  rw [activeItems_cons, ItemsSpan, List.map_append]
  exact first.append more

/-- The top-level parts are left without their conditionals. -/
theorem items_kept {phrase : ItemPhrase} (spans : phrase.Spans room tokens rest) :
    ItemsKept isDefined room phrase tokens rest := by
  -- As in a body, with the parts that are selected in the place of resolved statements.
  induction spans with
  | plain plain =>
    intro _ wider enough braces keeps
    exact .single (plainItem_kept isDefined plain keeps enough)
  | tested spans ih =>
    intro noElse wider enough braces keeps
    rw [selectFrom_starts spans.startsConditional, keeps]
    exact ih noElse wider enough braces
  | conditional free spansYes spansNo yes no =>
    intro noElse wider enough braces
    rw [selectFrom_test, activeItems_choice]
    cases holds : Shading.Guard.holds isDefined _
    · -- The region is dropped, so that what follows it decides.
      simp only [Bool.and_false, Bool.not_false, Bool.and_true, Bool.false_eq_true, if_false]
      rw [items_dropped spansYes braces true]
      exact no noElse wider enough braces
    · -- The region is kept, so that nothing is left of what follows it.
      simp only [Bool.and_true, Bool.not_true, Bool.and_false, if_true]
      rw [← items_dropped spansNo noElse braces]
      exact yes wider enough braces false
  | endRegion =>
    intro wider _ braces keptElse
    rw [selectFrom_closeRegion]
    exact .none
  -- In a region that is kept, the parts are kept one after the other.
  | nextInRegion _ spansMore first more =>
    intro wider enough braces keptElse
    have leftFirst := first (noElse_of_itemRegion spansMore) wider (by omega)
      (.region true keptElse :: braces) rfl
    exact itemsSpan_cons isDefined leftFirst (more wider enough braces keptElse)
  | without =>
    intro noElse wider _ braces
    rw [selectFrom_closed noElse]
    exact .none
  | otherwise _ ih =>
    intro noElse wider enough braces
    have left := ih wider enough braces false
    rw [selectFrom_closed noElse] at left
    rw [selectFrom_otherwise]
    exact left
  | chained _ ih =>
    intro noElse wider enough braces
    rw [selectFrom_else]
    exact ih noElse wider (by omega) braces
  | ended => exact .none
  | next _ spansMore first more =>
    exact itemsSpan_cons isDefined (first (noElse_of_items spansMore) _ (Nat.le_refl _) [] rfl) more

end Shading.Selection

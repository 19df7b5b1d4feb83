import Shading.Proofs.Grammar.UnitComplete
import Shading.Proofs.Selection.Scanner

/-! Where words are dropped, nothing of a phrase is left, and the scanner ends up as it was. -/

namespace Shading.Selection

open Source Grammar

variable {isDefined : String → Bool} {braces : List Brace} {room : Nat} {tokens rest : List Token}

/-- Nothing is left of an expression. -/
theorem expr_dropped {phrase : ExprPhrase} (spans : phrase.Spans room tokens rest)
    (drops : kept braces = false) :
    selectFrom isDefined ⟨.text, braces⟩ tokens = selectFrom isDefined ⟨.text, braces⟩ rest := by
  -- Every word of an expression is plain, and plain words are dropped one by one.
  have plain := @selectFrom_plain_dropped isDefined braces drops
  induction spans with
  | named free => exact plain (isPlain_word free _) _
  | field _ free ih => rw [ih, plain (by simp), plain (isPlain_word free _)]
  | _ => simp_all

/-- What the scanner does with a phrase of a body where it drops words. -/
def BodyDropped (isDefined : String → Bool) : BodyPhrase → List Token → List Token → Prop
  | .statement _, tokens, rest =>
    NoElse rest → ∀ braces, kept braces = false →
      selectFrom isDefined ⟨.text, braces⟩ tokens = selectFrom isDefined ⟨.text, braces⟩ rest
  | .selection _, tokens, rest | .block _, tokens, rest =>
    ∀ braces, kept braces = false →
      selectFrom isDefined ⟨.text, braces⟩ tokens = selectFrom isDefined ⟨.text, braces⟩ rest
  | .blockEnd _, tokens, rest =>
    ∀ braces, kept braces = false →
      selectFrom isDefined ⟨.text, .plain :: braces⟩ tokens =
        selectFrom isDefined ⟨.text, braces⟩ rest
  -- What is around a dropped region may be kept.
  | .region _, tokens, rest =>
    ∀ braces keptElse, selectFrom isDefined ⟨.text, .region false keptElse :: braces⟩ tokens =
      selectFrom isDefined ⟨.closed keptElse, braces⟩ rest
  | .conditional _, tokens, rest =>
    NoElse rest → ∀ braces, selectFrom isDefined ⟨.otherwise false, braces⟩ tokens =
      selectFrom isDefined ⟨.text, braces⟩ rest
  | .alternative _, tokens, rest =>
    NoElse rest → ∀ braces, selectFrom isDefined ⟨.closed false, braces⟩ tokens =
      selectFrom isDefined ⟨.text, braces⟩ rest

/-- Nothing is left of a part of a body. -/
theorem body_dropped {phrase : BodyPhrase} (spans : phrase.Spans room tokens rest) :
    BodyDropped isDefined phrase tokens rest := by
  -- Words that are plain go one by one, and braces are matched by the phrases that they enclose.
  induction spans with
  | declare free =>
    intro _ braces drops
    rw [selectFrom_plain_dropped drops (by simp), selectFrom_plain_dropped drops (by simp [free]),
      selectFrom_plain_dropped drops (by simp)]
  | initialise free initial =>
    intro _ braces drops
    rw [selectFrom_plain_dropped drops (by simp), selectFrom_plain_dropped drops (by simp [free]),
      selectFrom_plain_dropped drops (by simp), expr_dropped initial drops,
      selectFrom_plain_dropped drops (by simp)]
  | assign target _ value =>
    intro _ braces drops
    rw [expr_dropped target drops, selectFrom_plain_dropped drops (by simp),
      expr_dropped value drops, selectFrom_plain_dropped drops (by simp)]
  | evaluate e =>
    intro _ braces drops
    rw [expr_dropped e drops, selectFrom_plain_dropped drops (by simp)]
  | discard | leave =>
    intro _ braces drops
    rw [selectFrom_plain_dropped drops (isPlain_keyword (by decide) _),
      selectFrom_plain_dropped drops (by simp)]
  | selected _ ih => exact fun _ => ih
  | tested spans ih =>
    intro noElse braces drops
    rw [selectFrom_starts spans.startsConditional, drops]
    exact ih noElse braces
  | ifThen condition _ yes =>
    intro braces drops
    rw [selectFrom_plain_dropped drops (isPlain_keyword (by decide) _),
      selectFrom_plain_dropped drops (by simp), expr_dropped condition drops,
      selectFrom_plain_dropped drops (by simp)]
    exact yes braces drops
  | ifThenElse condition _ _ yes no | ifElseIf condition _ _ yes no =>
    intro braces drops
    rw [selectFrom_plain_dropped drops (isPlain_keyword (by decide) _),
      selectFrom_plain_dropped drops (by simp), expr_dropped condition drops,
      selectFrom_plain_dropped drops (by simp), yes braces drops,
      selectFrom_plain_dropped drops (isPlain_keyword (by decide) _)]
    exact no braces drops
  -- Both regions are dropped, whichever of them the test selects.
  | conditional _ _ _ yes no =>
    intro noElse braces
    rw [selectFrom_test]
    simp only [Bool.false_and]
    rw [yes braces false]
    exact no noElse braces
  -- A block of its own has a plain brace, which is dropped like all around it.
  | block _ ih =>
    intro braces drops
    rw [selectFrom_open, drops]
    exact ih braces drops
  | endBlock =>
    intro braces drops
    rw [selectFrom_close, drops]
    rfl
  | nextInBlock _ spansMore first more =>
    intro braces drops
    rw [first (noElse_of_blockEnd spansMore) (.plain :: braces) drops]
    exact more braces drops
  -- The end of a region brings back what the brace in front of it has put aside.
  | endRegion => exact fun braces keptElse => selectFrom_closeRegion _ _ _ _
  | nextInRegion _ spansMore first more =>
    intro braces keptElse
    rw [first (noElse_of_region spansMore) (.region false keptElse :: braces) rfl]
    exact more braces keptElse
  | without => exact fun noElse braces => selectFrom_closed noElse false
  | otherwise _ ih =>
    intro noElse braces
    rw [selectFrom_otherwise, ih braces false, selectFrom_closed noElse]
  | chained _ ih =>
    intro noElse braces
    rw [selectFrom_else]
    exact ih noElse braces

/-- Nothing is left of the components of a layout but the braces around them. -/
theorem components_dropped {named : List (String × Nat)} (spans : ComponentsSpan named tokens rest)
    (drops : kept braces = false) :
    selectFrom isDefined ⟨.text, .plain :: braces⟩ tokens =
      selectFrom isDefined ⟨.text, braces⟩ rest := by
  -- A plain brace drops what it encloses where what is around it is dropped.
  have dropsInside : kept (.plain :: braces) = false := drops
  induction spans with
  | none => rw [selectFrom_close, drops]; rfl
  | last free =>
    rw [selectFrom_plain_dropped dropsInside (by simp [free]), selectFrom_close, drops]
    rfl
  | next free _ ih =>
    rw [selectFrom_plain_dropped dropsInside (by simp [free]),
      selectFrom_plain_dropped dropsInside (by simp), ih]

/-- Nothing is left of a top-level part. -/
theorem plainItem_dropped {item : Item (List SourceStatement)}
    (spans : PlainSpan room item tokens rest) (drops : kept braces = false) :
    selectFrom isDefined ⟨.text, braces⟩ tokens = selectFrom isDefined ⟨.text, braces⟩ rest := by
  -- No top-level part that is plain tests anything outside of its body.
  cases spans with
  | @declaration role _ _ _ _ _ _ _ free =>
    rw [selectFrom_plain_dropped drops (isPlain_keyword (by cases role <;> decide) _),
      selectFrom_plain_dropped drops (by simp), selectFrom_plain_dropped drops (by simp [free]),
      selectFrom_plain_dropped drops (by simp)]
  | layout components =>
    rw [selectFrom_plain_dropped drops (isPlain_keyword (by decide) _), selectFrom_open, drops]
    exact components_dropped components drops
  -- A body is dropped up to its own brace.
  | @stage which _ _ _ _ body =>
    rw [selectFrom_plain_dropped drops (isPlain_keyword (by cases which <;> decide) _)]
    exact body_dropped body braces drops

/-- What the scanner does with top-level parts where it drops words. -/
def ItemsDropped (isDefined : String → Bool) : ItemPhrase → List Token → List Token → Prop
  | .item _, tokens, rest =>
    NoElse rest → ∀ braces, kept braces = false →
      selectFrom isDefined ⟨.text, braces⟩ tokens = selectFrom isDefined ⟨.text, braces⟩ rest
  | .region _, tokens, rest =>
    ∀ braces keptElse, selectFrom isDefined ⟨.text, .region false keptElse :: braces⟩ tokens =
      selectFrom isDefined ⟨.closed keptElse, braces⟩ rest
  | .conditional _, tokens, rest =>
    NoElse rest → ∀ braces, selectFrom isDefined ⟨.otherwise false, braces⟩ tokens =
      selectFrom isDefined ⟨.text, braces⟩ rest
  | .alternative _, tokens, rest =>
    NoElse rest → ∀ braces, selectFrom isDefined ⟨.closed false, braces⟩ tokens =
      selectFrom isDefined ⟨.text, braces⟩ rest
  -- No whole source is within a region.
  | .items _, _, _ => True

/-- Nothing is left of top-level parts. -/
theorem items_dropped {phrase : ItemPhrase} (spans : phrase.Spans room tokens rest) :
    ItemsDropped isDefined phrase tokens rest := by
  -- As in a body; only regions are dropped, so nothing is said of a whole source.
  induction spans with
  | plain plain => exact fun _ _ drops => plainItem_dropped plain drops
  | tested spans ih =>
    intro noElse braces drops
    rw [selectFrom_starts spans.startsConditional, drops]
    exact ih noElse braces
  -- Neither region of a conditional is kept inside what is dropped.
  | conditional _ _ _ yes no =>
    intro noElse braces
    rw [selectFrom_test]
    simp only [Bool.false_and]
    rw [yes braces false]
    exact no noElse braces
  | endRegion => exact fun braces keptElse => selectFrom_closeRegion _ _ _ _
  | nextInRegion _ spansMore first more =>
    intro braces keptElse
    rw [first (noElse_of_itemRegion spansMore) (.region false keptElse :: braces) rfl]
    exact more braces keptElse
  | without => exact fun noElse braces => selectFrom_closed noElse false
  -- The region behind an `else` is dropped as any other, and there is no further `else`.
  | otherwise _ ih =>
    intro noElse braces
    rw [selectFrom_otherwise, ih braces false, selectFrom_closed noElse]
  | chained _ ih =>
    intro noElse braces
    rw [selectFrom_else]
    exact ih noElse braces
  | ended | next => trivial

end Shading.Selection

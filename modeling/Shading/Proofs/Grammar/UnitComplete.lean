import Shading.Proofs.Grammar.BodyComplete
import Shading.Proofs.Grammar.Unit

/-! Every source of the grammar is read as the top-level parts it stands for, where it fits. -/

namespace Shading.Grammar

open Source

variable {room : Nat} {tokens rest : List Token}

/-- The components of a layout are read, with or without a comma after the last one. -/
theorem componentNames_complete {named : List (String × Nat)}
    (spans : ComponentsSpan named tokens rest) {limit : Nat} (enough : tokens.length ≤ limit) :
    componentNames limit tokens = .ok (named, rest) := by
  -- Every component takes a word, and there is a limit left for each of them.
  induction spans generalizing limit with
  | none => cases limit <;> simp [componentNames]
  | last free =>
    obtain ⟨less, rfl, -⟩ := limit_step (Nat.lt_succ_self _) enough
    cases less <;>
      simp [componentNames, Source.name, free]
  | @next name line named line' tokens rest free _ ih =>
    obtain ⟨less, rfl, enoughMore⟩ := limit_step (Nat.lt_succ_self _) enough
    have readMore := ih (Nat.le_of_succ_le enoughMore)
    simp [componentNames, Source.name, free, readMore]

/-- A top-level part that is not conditional is read. -/
theorem plainItem_complete {item : Item (List SourceStatement)}
    (spans : PlainSpan room item tokens rest) : plainItem room tokens = .ok (item, rest) := by
  cases spans with
  | @declaration role type name line line' line'' line''' rest free =>
    have read : declaration role (word type.keyword line' :: word name line'' ::
        sign .semicolon line''' :: rest) = .ok (.declaration role ⟨type, name⟩ line'', rest) := by
      simp [declaration, dataType, Source.name, free]
    -- Each role has its own keyword, and all of them are read alike behind it.
    cases role <;> exact read
  -- The names are cut off by their brace, however many words follow.
  | layout components =>
    have read := componentNames_complete components (Nat.le_refl _)
    simp [plainItem, layoutItem, read]
  | @stage which body line tokens rest body =>
    have read : (bodyParsers room).block tokens = .ok (_, rest) := body.completes
    cases which <;>
      simp [plainItem, stageKeyword, stageItem, read]

/-- A part that is not conditional does not start with a test for a define. -/
theorem PlainSpan.noTest {item : Item (List SourceStatement)}
    (spans : PlainSpan room item tokens rest) : startsConditional tokens = false := by
  -- No keyword of a plain part is one of the two tests.
  cases spans with
  | @declaration role => cases role <;> rfl
  | layout => rfl
  | @stage which => cases which <;> rfl

/-- A part that is not conditional is read whatever is nested in others. -/
theorem item_plain {item : Item (List SourceStatement)} (spans : PlainSpan room item tokens rest)
    (inner : ItemParsers) : Source.item room inner tokens = ⟨[.always item], .ok rest⟩ := by
  -- Without a test in front only the reader of plain parts is asked.
  simp [Source.item, spans.noTest, plainItem_complete spans, Except.map, Outcome.ofResult]

/-- What the readers of top-level parts do with the words that a phrase spans. -/
def ItemPhrase.Completes (room : Nat) : ItemPhrase → List Token → List Token → Prop
  | .item i, tokens, rest =>
    NoElse rest → Source.item room (itemParsers room) tokens = ⟨[i], .ok rest⟩
  | .conditional i, tokens, rest =>
    NoElse rest → Source.conditional .choice (itemParsers room).item
      (itemParsers room).conditional tokens = ⟨[i], .ok rest⟩
  -- The limit of the parts is never met before the words are.
  | .region is, tokens, rest =>
    ∀ limit, tokens.length ≤ limit →
      untilBrace (itemParsers room).item limit tokens = ⟨is, .ok rest⟩
  | .alternative is, tokens, rest =>
    NoElse rest → Source.alternative (itemParsers room).item
      (itemParsers room).conditional tokens = ⟨is, .ok rest⟩
  | .items is, tokens, rest =>
    ∀ limit, tokens.length ≤ limit →
      untilEnd (Source.item room (itemParsers room)) limit tokens = ⟨is, .ok rest⟩

/-- A conditional starts with a test for a define. -/
theorem ItemPhrase.Spans.startsConditional {i : SourceItem}
    (spans : (ItemPhrase.conditional i).Spans room tokens rest) :
    startsConditional tokens = true := by
  -- The keyword of the test is the first word of the derivation.
  cases spans with
  | conditional => exact startsConditional_iff.mpr ⟨_, _, _, rfl⟩

/-- Every phrase that fits is read as the top-level parts it stands for. -/
theorem ItemPhrase.Spans.completes {phrase : ItemPhrase} (spans : phrase.Spans room tokens rest) :
    phrase.Completes room tokens rest := by
  -- Along the derivation; an `else` would be taken for what ends without one.
  induction spans with
  | plain plain => exact fun _ => item_plain plain _
  | tested spans ih =>
    intro noElse
    rw [Source.item, if_pos spans.startsConditional]
    exact ih noElse
  | conditional free spansYes _ yes no =>
    intro noElse
    exact conditional_eq _ _ _ _ free (yes _ (Nat.le_refl _)) (no noElse)
  -- A region needs a step for each part, and every part takes at least one word.
  | endRegion => exact fun limit _ => untilBrace_close limit _ _
  | nextInRegion spansFirst spansMore first more =>
    intro limit enough
    obtain ⟨less, rfl, enoughMore⟩ := limit_step spansFirst.length_le enough
    exact untilBrace_next spansFirst.starts (first (noElse_of_itemRegion spansMore))
      (more less enoughMore)
  | without => exact fun noElse => alternative_without noElse
  | otherwise _ ih =>
    intro _
    rw [alternative_braced _ (by rfl), braced_sign]
    exact ih _ (Nat.le_refl _)
  | chained spans ih =>
    intro noElse
    rw [alternative_chained _ spans.startsConditional]
    exact ih noElse
  -- A source ends with its last word, for which one step is left.
  | ended =>
    intro limit enough
    obtain ⟨less, rfl, -⟩ := limit_step (Nat.lt_succ_self _) enough
    simp [untilEnd, Token.isEnd]
  | next spansFirst spansMore first more =>
    intro limit enough
    obtain ⟨less, rfl, enoughMore⟩ := limit_step spansFirst.length_le enough
    have readMore := more less enoughMore
    simp [untilEnd, spansFirst.starts.noEnd, first (noElse_of_items spansMore), Outcome.andThen,
      readMore]

/-- A source that fits is read as the parts it stands for. -/
theorem sourceItems_complete {items : List SourceItem}
    (spans : (ItemPhrase.items items).Spans room tokens rest) :
    sourceItems room tokens = ⟨items, .ok rest⟩ :=
  -- The number of words is enough, as each part takes one.
  spans.completes tokens.length (Nat.le_refl _)

end Shading.Grammar

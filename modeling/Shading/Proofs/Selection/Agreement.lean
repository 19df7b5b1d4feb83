import Shading.Proofs.Grammar.Accepts
import Shading.Proofs.Program.Draft
import Shading.Proofs.Selection.Front

/-! A source is the same program as the words that are selected from it. -/

namespace Shading.Selection

open Source Grammar

variable {room : Nat} {tokens rest : List Token}

/-- Top-level parts without conditionals are completed in order, and reading goes on after them. -/
theorem untilEnd_itemsSpan {items : List (Item (List SourceStatement))} (inner : ItemParsers)
    (spans : Sequence (PlainSpan room) items tokens rest) {limit : Nat}
    (enough : tokens.length ≤ limit) :
    ∃ further, rest.length ≤ further ∧ untilEnd (Source.item room inner) limit tokens =
      ⟨items.map .always ++ (untilEnd (Source.item room inner) further rest).completed,
        (untilEnd (Source.item room inner) further rest).rest⟩ := by
  induction spans generalizing limit with
  | none => exact ⟨limit, enough, rfl⟩
  | next span _ ih =>
    -- Each part takes a word, so there is a round left for what is behind it.
    have fewer := span.shorter
    obtain ⟨limit, rfl⟩ : ∃ less, limit = less + 1 := ⟨limit - 1, by omega⟩
    obtain ⟨further, more, readMore⟩ := @ih limit (by omega)
    refine ⟨further, more, ?_⟩
    simp [untilEnd, span.startsPart.noEnd, item_plain span, Outcome.andThen, readMore]

/-- The parts that stand in front of the selected words are the first to be completed. -/
theorem sourceItems_completes {items : List (Item (List Statement))}
    (spans : ItemsSpan room items tokens rest) (isDefined : String → Bool) :
    ∃ more, activeItems isDefined (sourceItems room tokens).completed = items ++ more := by
  -- Behind the parts in front, the loop goes on with what is left of its limit.
  obtain ⟨further, -, read⟩ := untilEnd_itemsSpan (itemParsers room) spans (Nat.le_refl _)
  refine ⟨activeItems isDefined
    (untilEnd (Source.item room (itemParsers room)) further rest).completed, ?_⟩
  rw [sourceItems, read, activeItems_append, List.map_map]
  congr 1
  exact activeItems_toSource isDefined items

/-- Selected words without a fault are completed as the parts that count. -/
theorem sourceItems_selected {items : List (Item (List Statement))} {line : Nat}
    (spans : ItemsSpan room items tokens [⟨.endOfFile, line⟩]) :
    sourceItems room tokens =
      ⟨items.map fun item => .always item.toSource, .ok [⟨.endOfFile, line⟩]⟩ := by
  -- The loop reads all parts and then meets the end.
  obtain ⟨further, enough, read⟩ :=
    untilEnd_itemsSpan (itemParsers room) spans (Nat.le_refl _)
  obtain ⟨further, rfl⟩ : ∃ less, further = less + 1 := ⟨further - 1, by grind⟩
  rw [sourceItems, read]
  simp [untilEnd, Token.isEnd]

/-- A reading without fault completes the same parts as that of the selected words. -/
theorem sourceItems_select (defines : Defines) (sentence : Sentence tokens)
    (whole : (sourceItems room tokens).rest = .ok rest) :
    ∃ line, sourceItems room (select defines.isDefined tokens) =
      ⟨(activeItems defines.isDefined (sourceItems room tokens).completed).map
        fun item => .always item.toSource, .ok [⟨.endOfFile, line⟩]⟩ := by
  -- The parts that count are kept in the selection, and the end stands behind them.
  obtain ⟨spans, line, rfl⟩ := sourceItems_sound sentence.endsOnce whole
  have keptAll := items_kept defines.isDefined spans
  have keptEnd : select defines.isDefined [⟨.endOfFile, line⟩] = [⟨.endOfFile, line⟩] :=
    selectFrom_plain_kept rfl (isPlain_end line) []
  rw [ItemsKept, keptEnd] at keptAll
  exact ⟨line, sourceItems_selected keptAll⟩

/--
A source agrees with the words that are selected from it, under whichever defines these are read.

Unless it is nested too deeply, both are programs that declare the same, or both fail at the same part.
-/
theorem ofTokens_select (sentence : Sentence tokens) (name : String) (defines others : Defines)
    (fits : ∀ line, Program.ofTokens maxNesting name defines tokens ≠
      .error (.grammar ⟨line, .tooDeep⟩)) :
    (∃ program selected, Program.ofTokens maxNesting name defines tokens = .ok program ∧
        Program.ofTokens maxNesting name others (select defines.isDefined tokens) = .ok selected ∧
        selected.layout = program.layout ∧ selected.uniforms = program.uniforms ∧
        selected.varyings = program.varyings ∧ selected.outputs = program.outputs ∧
        selected.vertex = program.vertex ∧ selected.fragment = program.fragment) ∨
      ∃ fault, Program.ofTokens maxNesting name defines tokens = .error (.declaration fault) ∧
        Program.ofTokens maxNesting name others (select defines.isDefined tokens) =
          .error (.declaration fault) := by
  -- The defines of the selected words change only what the program says of them.
  have start : (⟨.empty name others, false⟩ : Draft) =
      Draft.under others ⟨.empty name defines, false⟩ := rfl
  rw [ofTokens_eq] at fits ⊢
  rw [ofTokens_eq, start, Draft.declareAll_under]
  rcases sentence.read maxNesting with ⟨rest, whole⟩ | tooDeep
  · -- What is read whole has the same active parts as what is selected of it.
    obtain ⟨line, read⟩ := sourceItems_select defines sentence whole
    rw [whole, read, activeItems_toSource]
    cases Draft.declareAll ⟨.empty name defines, false⟩
      (activeItems defines.isDefined (sourceItems maxNesting tokens).completed) with
    | error fault => exact .inr ⟨fault, rfl, rfl⟩
    | ok draft => exact .inl ⟨_, _, rfl, rfl, rfl, rfl, rfl, rfl, rfl, rfl⟩
  · obtain ⟨after, front⟩ := sourceItems_front defines.isDefined tooDeep
    obtain ⟨more, completed⟩ := sourceItems_completes front others.isDefined
    cases declared : Draft.declareAll ⟨.empty name defines, false⟩
        (activeItems defines.isDefined (sourceItems maxNesting tokens).completed) with
    | error fault =>
      -- The part at fault was completed before the reading was cut short.
      rw [declared] at fits
      right
      refine ⟨fault, rfl, ?_⟩
      rw [select, completed, Draft.declareAll_append_error _ declared]
      rfl
    | ok draft =>
      obtain ⟨line, cut⟩ := tooDeep
      exact absurd (by simp [declared, cut]) (fits line)

/-- Of a stage with a conditional body, the branch that is taken is selected. -/
theorem ofTokens_select_branch :
    let tokens := [word "vertex" 1, sign .leftBrace 1, word "ifdef" 1, word "A" 1, sign .leftBrace 1,
      word "discard" 1, sign .semicolon 1, sign .rightBrace 1, word "else" 1, sign .leftBrace 1,
      word "return" 1, sign .semicolon 1, sign .rightBrace 1, sign .rightBrace 1, ⟨.endOfFile, 1⟩]
    ∃ program selected,
      Program.ofTokens maxNesting "branch" (Defines.empty.define "A") tokens = .ok program ∧
      Program.ofTokens maxNesting "branch" .empty [word "vertex" 1, sign .leftBrace 1,
        word "discard" 1, sign .semicolon 1, sign .rightBrace 1, ⟨.endOfFile, 1⟩] = .ok selected ∧
      selected.vertex = program.vertex := by
  intro tokens
  -- The words are those of a source, so that they end once.
  have cut : tokenize "vertex \x7b ifdef A \x7b discard; \x7d else \x7b return; \x7d \x7d" =
      .ok tokens := rfl
  have whole : (sourceItems maxNesting tokens).rest = .ok [⟨.endOfFile, 1⟩] := rfl
  obtain ⟨spans, -⟩ := sourceItems_sound (tokenize_endsOnce cut) whole
  have succeeds : ∀ error, Program.ofTokens maxNesting "branch" (Defines.empty.define "A") tokens ≠
      .error error := fun _ failed => nomatch failed
  -- Of the two outcomes only success is possible, since the words give a program.
  rcases ofTokens_select ⟨_, maxNesting, 1, spans⟩ "branch" (Defines.empty.define "A") .empty
    fun line => succeeds _ with ⟨program, selected, read, readSelected, same⟩ | ⟨_, failed, -⟩
  · exact ⟨program, selected, read, readSelected, same.2.2.2.2.1⟩
  · exact absurd failed (succeeds _)

end Shading.Selection

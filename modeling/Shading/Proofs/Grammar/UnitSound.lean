import Shading.Proofs.Grammar.BodySound
import Shading.Proofs.Grammar.Unit

/-! Whatever the readers of sources accept is a top-level part of the grammar. -/

namespace Shading.Grammar

open Source

variable {room : Nat} {tokens rest : List Token}

/-- A declaration is read after the keyword of its role. -/
theorem declaration_sound (role : Role) (line : Nat) :
    Sound (Source.declaration role) fun item tokens rest =>
      PlainSpan room item (word (roleKeyword role).spelling line :: tokens) rest := by
  intro tokens item rest read
  simp only [Source.declaration, bind_eq_ok, Prod.exists, dataType_eq_ok, name_eq_ok, expect_eq_ok,
    pure_eq_ok, Prod.mk.injEq] at read
  -- The keyword was passed before, so the type is the first word that is left.
  obtain ⟨type, _, ⟨line', rfl⟩, name, _, ⟨line'', rfl, free⟩, _, ⟨lastLine, rfl⟩, rfl, rfl⟩ := read
  exact .declaration free

/-- The components of a layout are read up to the closing brace. -/
theorem componentNames_sound (limit : Nat) : Sound (componentNames limit) ComponentsSpan := by
  intro tokens named rest read
  -- Each step passes a component, until the brace that closes the list.
  induction limit generalizing tokens named with
  | zero =>
    simp only [componentNames] at read
    split at read
    · rename_i brace
      obtain ⟨line, after, rfl⟩ := startsWith_iff.mp brace
      obtain ⟨rfl, rfl⟩ := Prod.mk.inj (Except.ok.inj read)
      exact .none
    · simp [unexpected] at read
  | succ limit ih =>
    simp only [componentNames] at read
    split at read
    · rename_i brace
      obtain ⟨line, after, rfl⟩ := startsWith_iff.mp brace
      obtain ⟨rfl, rfl⟩ := Prod.mk.inj (Except.ok.inj read)
      exact .none
    · simp only [bind_eq_ok, Prod.exists, name_eq_ok] at read
      obtain ⟨name, afterName, ⟨line, rfl, free⟩, read⟩ := read
      split at read
      -- A brace behind a name ends the list, and no more than this brace is passed then.
      · rename_i brace
        obtain ⟨line', after, rfl⟩ := startsWith_iff.mp brace
        simp only [bind_eq_ok, Prod.exists, headToken_cons, pure_eq_ok, Prod.mk.injEq,
          Except.ok.injEq] at read
        obtain ⟨_, rfl, more, _, readMore, rfl, rfl⟩ := read
        cases ih readMore with
        | none => exact .last free
      · -- Otherwise a comma has to follow, after which the list may end as well.
        simp only [bind_eq_ok, Prod.exists, headToken_cons, pure_eq_ok, Prod.mk.injEq,
          expect_eq_ok] at read
        obtain ⟨_, ⟨line', rfl⟩, more, _, readMore, rfl, rfl⟩ := read
        exact .next free (ih readMore)

/-- A vertex layout is read from its keyword on. -/
theorem layoutItem_sound (starts : headKeyword? tokens = some .vertexLayout)
    {item : Item (List SourceStatement)} (read : layoutItem tokens = .ok (item, rest)) :
    PlainSpan room item tokens rest := by
  -- Each step of the reader succeeded, and gives one word or phrase of the rule.
  obtain ⟨line, after, rfl⟩ := headKeyword?_eq_some.mp starts
  simp only [layoutItem, bind_eq_ok, Prod.exists, List.tail_cons, expect_eq_ok, headToken_cons,
    pure_eq_ok, Prod.mk.injEq] at read
  obtain ⟨inside, ⟨line', rfl⟩, named, _, readNames, rfl, rfl⟩ := read
  exact .layout (componentNames_sound _ readNames)

/-- A stage is read from its keyword on. -/
theorem stageItem_sound (which : Stage) (starts : headKeyword? tokens = some (stageKeyword which))
    {item : Item (List SourceStatement)} (read : stageItem room which tokens = .ok (item, rest)) :
    PlainSpan room item tokens rest := by
  -- The body is all that is read behind the keyword.
  obtain ⟨line, after, rfl⟩ := headKeyword?_eq_some.mp starts
  simp only [stageItem, bind_eq_ok, Prod.exists, List.tail_cons, headToken_cons, pure_eq_ok,
    Prod.mk.injEq] at read
  obtain ⟨body, _, readBody, rfl, rfl⟩ := read
  exact .stage ((bodyParsers_sound room).block readBody)

/-- A top-level part that is not conditional is read. -/
theorem plainItem_sound (room : Nat) : Sound (plainItem room) (PlainSpan room) := by
  intro tokens item rest read
  simp only [plainItem] at read
  split at read
  -- The keyword that is met tells which part it is.
  · rename_i met
    obtain ⟨line, after, rfl⟩ := headKeyword?_eq_some.mp met
    exact declaration_sound .uniform line read
  · rename_i met
    obtain ⟨line, after, rfl⟩ := headKeyword?_eq_some.mp met
    exact declaration_sound .varying line read
  · rename_i met
    obtain ⟨line, after, rfl⟩ := headKeyword?_eq_some.mp met
    exact declaration_sound .output line read
  · rename_i met
    exact layoutItem_sound met read
  · rename_i met
    exact stageItem_sound .vertex met read
  · rename_i met
    exact stageItem_sound .fragment met read
  · -- Nothing else starts a part.
    simp [unexpected] at read

/-- The single top-level part that is read spans a phrase. -/
def SingleItem (phrase : SourceItem → ItemPhrase) (room : Nat) (is : List SourceItem)
    (tokens rest : List Token) : Prop :=
  ∃ i, is = [i] ∧ (phrase i).Spans room tokens rest

/-- The single part that is read spans a phrase, one level deeper than where it is used. -/
def NestedItem (phrase : SourceItem → ItemPhrase) (room : Nat) (is : List SourceItem)
    (tokens rest : List Token) : Prop :=
  ∃ inner, room = inner + 1 ∧ SingleItem phrase inner is tokens rest

/-- The readers of top-level parts accept what the grammar has rules for, a level deeper. -/
structure SoundItemReaders (room : Nat) (readers : ItemParsers) : Prop where
  item : SoundParts readers.item (NestedItem .item room)
  conditional : ∀ ⦃tokens rest⦄, startsConditional tokens = true →
    (readers.conditional tokens).rest = .ok rest →
    NestedItem .conditional room (readers.conditional tokens).completed tokens rest

variable {inner : ItemParsers}

/-- The parts of a region are read up to its closing brace. -/
theorem itemRegion_sound (sound : SoundItemReaders room inner) (limit : Nat) :
    SoundParts (untilBrace inner.item limit) fun is => (ItemPhrase.region is).Spans room := by
  refine untilBrace_sound sound.item .endRegion ?_ limit
  -- Each part of a region is read a level below it.
  rintro _ more tokens between rest ⟨fewer, rfl, i, rfl, first⟩ spansMore
  exact .nextInRegion first spansMore

/-- A conditional among top-level parts is read with its regions. -/
theorem conditionalItem_sound (sound : SoundItemReaders room inner)
    (starts : startsConditional tokens = true)
    (read : (Source.conditional .choice inner.item inner.conditional tokens).rest = .ok rest) :
    SingleItem .conditional room
      (Source.conditional .choice inner.item inner.conditional tokens).completed tokens rest := by
  refine conditional_sound (itemRegion_sound sound) ?_
    (fun free yes no => ⟨_, rfl, .conditional free yes no⟩) starts read
  refine alternative_sound (itemRegion_sound sound) @sound.conditional .without .otherwise ?_
  -- A conditional after `else` is read a level below it as well.
  rintro _ line tokens rest ⟨fewer, rfl, i, rfl, spans⟩
  exact .chained spans

/-- A top-level part or a conditional among them is read. -/
theorem item_sound (sound : SoundItemReaders room inner) :
    SoundParts (Source.item room inner) (SingleItem .item room) := by
  -- The test in front tells a conditional from a plain part.
  intro tokens rest read
  simp only [Source.item] at read ⊢
  split at read
  · rename_i starts
    rw [if_pos starts]
    obtain ⟨i, single, spans⟩ := conditionalItem_sound sound starts read
    exact ⟨i, single, .tested spans⟩
  · rename_i noTest
    -- Without a test, the part always counts.
    rw [if_neg noTest]
    obtain ⟨i, readPlain, single⟩ := ofResult_rest_eq_ok.mp read
    refine ⟨i, single, ?_⟩
    cases reading : plainItem room tokens with
    | error error => simp [reading, Except.map] at readPlain
    | ok result =>
      simp only [reading, Except.map, Except.ok.injEq, Prod.mk.injEq] at readPlain
      obtain ⟨rfl, rfl⟩ := readPlain
      exact .plain (plainItem_sound room reading)

/-- What the readers of a number of levels accept is a top-level part. -/
theorem itemParsers_sound (room : Nat) : SoundItemReaders room (itemParsers room) := by
  induction room with
  -- With no level left, no reader accepts anything.
  | zero => exact ⟨by simp [SoundParts, itemParsers, tooDeep], by simp [itemParsers, tooDeep]⟩
  | succ room ih =>
    exact ⟨fun _ _ read => ⟨room, rfl, item_sound ih read⟩,
      fun _ _ starts read => ⟨room, rfl, conditionalItem_sound ih starts read⟩⟩

/-- Top-level parts are read up to the word that ends the source. -/
theorem untilEnd_sound (limit : Nat) {tokens rest : List Token} (enough : tokens.length ≤ limit)
    (ends : EndsOnce tokens)
    (read : (untilEnd (Source.item room (itemParsers room)) limit tokens).rest = .ok rest) :
    (ItemPhrase.items
        (untilEnd (Source.item room (itemParsers room)) limit tokens).completed).Spans
      room tokens rest ∧ ∃ line, rest = [⟨.endOfFile, line⟩] := by
  induction limit generalizing tokens with
  | zero =>
    -- A source has words left up to its end, which the limit covers.
    obtain ⟨words, line, rfl, -⟩ := ends
    simp at enough
  | succ limit ih =>
    simp only [untilEnd] at read ⊢
    split at read
    · rename_i atEnd
      rw [if_pos atEnd]
      -- The word that ends the source is the last one.
      obtain ⟨line, rfl⟩ := ends.eq_of_isEnd atEnd
      cases read
      exact ⟨.ended, line, rfl⟩
    · rename_i notEnd
      rw [if_neg notEnd]
      obtain ⟨between, readFirst, readMore, completed⟩ := andThen_rest_eq_ok.mp read
      obtain ⟨i, single, spans⟩ := item_sound (itemParsers_sound room) readFirst
      -- The part took a word, so the limit goes on covering the words after it.
      have enoughMore := Nat.le_of_succ_le_succ (Nat.le_trans spans.length_le enough)
      obtain ⟨spansMore, atEnd⟩ := ih enoughMore (spans.endsOnce ends) readMore
      rw [completed, single]
      exact ⟨.next spans spansMore, atEnd⟩

/-- A source that is read without fault is a sentence of the grammar. -/
theorem sourceItems_sound {tokens rest : List Token} (ends : EndsOnce tokens)
    (read : (sourceItems room tokens).rest = .ok rest) :
    (ItemPhrase.items (sourceItems room tokens).completed).Spans room tokens rest ∧
      ∃ line, rest = [⟨.endOfFile, line⟩] :=
  -- The loop over the parts may take as many steps as there are words.
  untilEnd_sound tokens.length (Nat.le_refl _) ends read

end Shading.Grammar

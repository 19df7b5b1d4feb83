import Shading.Proofs.Grammar.BodyBlame
import Shading.Proofs.Grammar.Unit

/-! Which word a fault of a whole source blames. -/

namespace Shading.Grammar

open Source

/-- These words are the components of a layout and its closing brace, whatever follows them. -/
def ComponentsWhole (named : List (String × Nat)) (words : List Token) : Prop :=
  ∀ rest, ComponentsSpan named (words ++ rest) rest

/-- These words are a top-level part that is not conditional, whatever follows them. -/
def PlainWhole (item : Item (List SourceStatement)) (words : List Token) : Prop :=
  ∃ room, ∀ rest, PlainSpan room item (words ++ rest) rest

/-- These words are a phrase, whatever follows them. -/
def ItemPhrase.Whole (phrase : ItemPhrase) (words : List Token) : Prop :=
  ∃ room, ∀ rest, phrase.Spans room (words ++ rest) rest

namespace ItemPhrase.Whole

variable {phrase : ItemPhrase} {words first second : List Token} {i : SourceItem}
  {is yes no : List SourceItem}

/-- A phrase that takes a word has one. -/
theorem nonempty (whole : phrase.Whole words) (takes : phrase.leastLength = 1) : words ≠ [] := by
  -- Nothing could be taken from the empty list.
  obtain ⟨room, spans⟩ := whole
  rintro rfl
  have fewer := (spans []).length_le
  rw [takes] at fewer
  simp at fewer

/-- A phrase fits within any number of levels from some number on. -/
theorem fits (whole : phrase.Whole words) :
    ∃ least, ∀ {room}, least ≤ room → ∀ rest, phrase.Spans room (words ++ rest) rest := by
  -- Levels can be added, and the words behind are arbitrary in a whole phrase.
  obtain ⟨room, spans⟩ := whole
  exact ⟨room, fun enough rest => (spans rest).mono enough⟩

/-- A part that is not conditional is a part. -/
theorem plain {item : Item (List SourceStatement)} (whole : PlainWhole item words) :
    (ItemPhrase.item (.always item)).Whole words := by
  -- The number of levels is the same.
  obtain ⟨room, spans⟩ := whole
  exact ⟨room, fun rest => .plain (spans rest)⟩

/-- A conditional is a part. -/
theorem tested (whole : (ItemPhrase.conditional i).Whole words) :
    (ItemPhrase.item i).Whole words := by
  -- The number of levels is the same.
  obtain ⟨room, spans⟩ := whole
  exact ⟨room, fun rest => .tested (spans rest)⟩

/-- A conditional consists of its regions. -/
theorem conditional {key : String} (free : isReserved key = false)
    (isYes : (region yes).Whole first) (isNo : (alternative no).Whole second) (present : Bool)
    (line line' line'' : Nat) :
    (ItemPhrase.conditional (.choice ⟨key, present⟩ yes no)).Whole
      (word (testKeyword present).spelling line :: word key line' :: sign .leftBrace line'' ::
        (first ++ second)) := by
  -- Both regions fit within the sum of the levels that they need.
  obtain ⟨least, spans⟩ := isYes.fits
  obtain ⟨least', spans'⟩ := isNo.fits
  refine ⟨least + least', fun rest => ?_⟩
  simp only [List.append_assoc, List.cons_append]
  exact .conditional free (spans (by omega) _) (spans' (by omega) _)

/-- A closing brace ends a region. -/
theorem endRegion (line : Nat) : (region []).Whole [sign .rightBrace line] :=
  -- The brace needs no level.
  ⟨0, fun _ => .endRegion⟩

/-- A part stands in front of those behind it in a region. -/
theorem nextInRegion (isFirst : (ItemPhrase.item i).Whole first) (areMore : (region is).Whole second) :
    (region (i :: is)).Whole (first ++ second) := by
  -- Both sides fit within the sum of their levels, and the list around them takes one more.
  obtain ⟨least, spans⟩ := isFirst.fits
  obtain ⟨least', spans'⟩ := areMore.fits
  refine ⟨least + least' + 1, fun rest => ?_⟩
  rw [List.append_assoc]
  exact .nextInRegion (spans (by omega) _) (spans' (by omega) _)

/-- An alternative may be left out. -/
theorem without : (alternative []).Whole [] :=
  -- No word is needed, and no level.
  ⟨0, fun _ => .without⟩

/-- A region behind `else` is an alternative. -/
theorem otherwise (whole : (region is).Whole words) (line line' : Nat) :
    (alternative is).Whole
      (word (Keyword.spelling .otherwise) line :: sign .leftBrace line' :: words) := by
  -- The brace and the keyword need no level of their own.
  obtain ⟨room, spans⟩ := whole
  exact ⟨room, fun rest => .otherwise (spans rest)⟩

/-- A conditional behind `else` is an alternative. -/
theorem chained (whole : (ItemPhrase.conditional i).Whole words) (line : Nat) :
    (alternative [i]).Whole (word (Keyword.spelling .otherwise) line :: words) := by
  -- A conditional that follows an `else` is one level further in.
  obtain ⟨room, spans⟩ := whole
  exact ⟨room + 1, fun rest => .chained (spans rest)⟩

end ItemPhrase.Whole

section Plain

variable {room : Nat} {tokens : List Token}

/-- The word that a declaration fails at is blamed. -/
theorem declaration_blames (role : Role) (line : Nat) (tokens : List Token) :
    Blames (fun item words => PlainWhole item (word (roleKeyword role).spelling line :: words))
      (declaration role) tokens := by
  have whole : ∀ {name} (type : DataType) (line' line'' line''' : Nat), isReserved name = false →
      PlainWhole (.declaration role ⟨type, name⟩ line'') [word (roleKeyword role).spelling line,
        word type.keyword line', word name line'', sign .semicolon line'''] :=
    fun _ _ _ _ free => ⟨0, fun _ => .declaration free⟩
  refine Blames.dataType.bind ?_ ?_
  · -- A declaration that stops behind its type can be completed with any name.
    rintro type _ ⟨line', rfl⟩
    exact ⟨_, _, @whole "x" type line' 1 1 rfl⟩
  rintro type _ rest - - ⟨line', rfl⟩
  -- The line of a declaration is the one of its name.
  have named : Blames (fun item words => PlainWhole item (word (roleKeyword role).spelling line ::
      word type.keyword line' :: words)) (fun tokens => name .name tokens >>= fun read =>
        expect .semicolon read.2 >>= fun behind =>
          .ok (.declaration role ⟨type, read.1⟩ (headToken rest).line, behind)) rest := by
    refine (Blames.name .name).bind ?_ ?_
    · rintro name _ ⟨line'', rfl, free⟩
      exact ⟨_, _, whole type line' line'' 1 free⟩
    rintro name _ rest - rfl ⟨line'', rfl, free⟩
    dsimp only
    refine .expect _ ⟨_, [], whole type line' line'' 1 free⟩ ?_
    rintro line''' rest rfl
    exact .pure (whole type line' line'' line''' free)
  -- The line is taken from the first word behind the type, on which both readers agree.
  refine named.congr fun tokens' alike => ?_
  rw [← alike]
  rfl

/-- Components behind a name: the brace that ends them, or a comma and further ones. -/
def componentsBehind (more : Parser (List (String × Nat))) (first : String × Nat) :
    Parser (List (String × Nat)) := fun tokens =>
  if startsWith .rightBrace tokens then do
    let (names, rest) ← more tokens
    return (first :: names, rest)
  else do
    let rest ← expect .comma tokens
    let (names, rest) ← more rest
    return (first :: names, rest)

/-- Components up to a closing brace: none, or a first one and those behind it. -/
def componentsStep (more : Parser (List (String × Nat))) : Parser (List (String × Nat)) :=
  fun tokens =>
    if startsWith .rightBrace tokens then .ok ([], tokens.tail)
    else do
      let (name, rest) ← name .vertexComponent tokens
      componentsBehind more (name, (headToken tokens).line) rest

/-- The names of components are read without a limit. -/
theorem componentNames_eq (tokens : List Token) :
    componentNames tokens.length tokens =
      componentsStep (fun rest => componentNames rest.length rest) tokens := by
  refine @loop_eq _ Unit (fun limit _ => componentNames limit)
    (fun more _ => componentsStep (more ())) (fun _ _ _ => rfl) (fun _ => rfl) ?_ () tokens
  intro more more' _ tokens same
  simp only [componentsStep]
  congr 1
  -- A name is passed in front of the brace, and a comma as well in front of anything else.
  refine bind_congr fun first read => ?_
  obtain ⟨name, rest⟩ := first
  obtain ⟨line, rfl, -⟩ := name_eq_ok.mp read
  simp only [componentsBehind, same () rest (Nat.lt_succ_self _)]
  congr 1
  refine bind_congr fun rest' passed => ?_
  obtain ⟨line', rfl⟩ := expect_eq_ok.mp passed
  -- Behind the comma two words are passed, and so there are fewer still.
  rw [same () rest' (Nat.lt_succ_of_lt (Nat.lt_succ_self _))]

/-- A closing brace ends the components. -/
theorem componentNames_close {tokens : List Token} (brace : startsWith .rightBrace tokens = true) :
    componentNames tokens.length tokens = .ok ([], tokens.tail) := by
  -- With the brace in front the first step of the loop ends it.
  rw [componentNames_eq]
  exact if_pos brace

/-- The word that components fail at behind the name of one is blamed. -/
theorem componentsBehind_blames {name : String} {line : Nat} {tokens : List Token}
    (free : isReserved name = false)
    (onward : ∀ {rest}, rest.length < tokens.length →
      Blames ComponentsWhole (fun rest => componentNames rest.length rest) rest) :
    Blames (fun named words => ComponentsWhole named (word name line :: words))
      (componentsBehind (fun rest => componentNames rest.length rest) (name, line)) tokens := by
  -- The comma may be left out in front of the brace only.
  refine .ite (fun _ => startsWith_congr) (fun brace => ?_) fun _ => ?_
  · obtain ⟨line', rest, rfl⟩ := startsWith_iff.mp brace
    have last : ComponentsWhole [(name, line)] [word name line, sign .rightBrace line'] :=
      fun _ => .last free
    refine (Blames.skip (.pure last)).congr fun tokens' alike => ?_
    simp only [componentNames_close ((startsWith_congr alike).trans brace), ok_bind, pure_eq]
  · -- A component behind a comma extends the names, and the brace alone would end them.
    have next : ∀ {named words} line', ComponentsWhole named words →
        ComponentsWhole ((name, line) :: named) (word name line :: sign .comma line' :: words) :=
      fun _ areMore rest => .next free (areMore rest)
    have close : ComponentsWhole [] [sign .rightBrace 1] := fun _ => .none
    refine .expect _ ⟨_, _, next 1 close⟩ ?_
    rintro line' rest rfl
    exact (onward (Nat.lt_succ_self _)).map ((name, line) :: ·) (fun _ _ => rfl) (next line')

/-- The word that the components of a layout fail at is blamed. -/
theorem componentNames_blames (tokens : List Token) : Blames ComponentsWhole
    (fun tokens => componentNames tokens.length tokens) tokens := by
  -- By the number of words, as each component takes at least one.
  induction short : tokens.length using Nat.strongRecOn generalizing tokens with
  | _ length ih =>
    subst short
    suffices step : Blames ComponentsWhole
        (componentsStep fun rest => componentNames rest.length rest) tokens from
      step.congr fun tokens' _ => componentNames_eq tokens'
    refine .ite (fun _ => startsWith_congr) (fun brace => ?_) fun _ => ?_
    · obtain ⟨line, rest, rfl⟩ := startsWith_iff.mp brace
      have close : ComponentsWhole [] [sign .rightBrace line] := fun _ => .none
      exact (Blames.skip (.pure close)).congr fun _ _ => rfl
    -- A name is completed by the brace behind it, and has the line of the first word.
    have named : Blames ComponentsWhole (fun tokens' =>
        name .vertexComponent tokens' >>= fun read =>
          componentsBehind (fun rest => componentNames rest.length rest)
            (read.1, (headToken tokens).line) read.2) tokens := by
      refine (Blames.name .vertexComponent).bind ?_ ?_
      · rintro name _ ⟨line, rfl, free⟩
        exact ⟨[(name, line)], [sign .rightBrace 1], fun _ => .last free⟩
      rintro name _ rest - rfl ⟨line, rfl, free⟩
      exact componentsBehind_blames free fun fewer => ih _ (Nat.lt_succ_of_lt fewer) _ rfl
    exact named.congr fun tokens' alike => by rw [← alike]

/-- The word that a vertex layout fails at is blamed. -/
theorem layoutItem_blames (starts : headKeyword? tokens = some .vertexLayout) :
    Blames PlainWhole layoutItem tokens := by
  -- The keyword is there, so that the fault is behind it.
  obtain ⟨line, rest, rfl⟩ := headKeyword?_eq_some.mp starts
  have whole : ∀ {named words} line', ComponentsWhole named words → PlainWhole (.layout named line)
      (word (Keyword.spelling .vertexLayout) line :: sign .leftBrace line' :: words) :=
    fun _ areComponents => ⟨0, fun rest => .layout (areComponents rest)⟩
  have behind : Blames (fun item words => PlainWhole item
      (word (Keyword.spelling .vertexLayout) line :: words)) (fun tokens =>
        expect .leftBrace tokens >>= fun rest => componentNames rest.length rest >>= fun read =>
          .ok (.layout read.1 line, read.2)) rest := by
    -- A layout that stops at its brace can be completed without components.
    have close : ComponentsWhole [] [sign .rightBrace 1] := fun _ => .none
    refine .expect _ ⟨_, _, whole 1 close⟩ ?_
    rintro line' rest rfl
    exact (componentNames_blames rest).map (.layout · line) (fun _ _ => rfl) (whole line')
  refine behind.skip.congr fun tokens' alike => ?_
  rw [layoutItem, alike]
  rfl

/-- The word that a stage fails at is blamed. -/
theorem stageItem_blames (which : Stage) (starts : headKeyword? tokens = some (stageKeyword which)) :
    Blames PlainWhole (stageItem room which) tokens := by
  -- The keyword is there, and the block behind it is all that can fail.
  obtain ⟨line, rest, rfl⟩ := headKeyword?_eq_some.mp starts
  have behind : Blames (fun item words => PlainWhole item
      (word (stageKeyword which).spelling line :: words)) (fun tokens =>
        (bodyParsers room).block tokens >>= fun read => .ok (.stage which read.1 line, read.2))
      rest := by
    refine ((bodyParsers_blames room).block rest).map (.stage which · line) (fun _ _ => rfl) ?_
    rintro body words ⟨room, spans⟩
    exact ⟨room, fun rest => .stage (spans rest)⟩
  -- The line is that of the keyword, which both readers see.
  refine behind.skip.congr fun tokens' alike => ?_
  rw [stageItem, alike]
  rfl

/-- Reads the top-level part that starts with a keyword, if this keyword starts one. -/
def plainItemOf (room : Nat) : Option Keyword → Parser (Item (List SourceStatement))
  | some .uniform => fun tokens => declaration .uniform tokens.tail
  | some .varying => fun tokens => declaration .varying tokens.tail
  | some .output => fun tokens => declaration .output tokens.tail
  | some .vertexLayout => layoutItem
  | some .vertex => stageItem room .vertex
  | some .fragment => stageItem room .fragment
  | _ => unexpected .item

/-- The first word alone tells which top-level part is read. -/
theorem plainItem_eq (tokens : List Token) :
    plainItem room tokens = plainItemOf room (headKeyword? tokens) tokens := by
  -- The definition is a match on the keyword, so that both sides agree case by case.
  unfold plainItem
  rcases headKeyword? tokens with _ | keyword
  · rfl
  · cases keyword <;> rfl

/-- The word that a top-level part that is not conditional fails at is blamed. -/
theorem plainItem_blames (room : Nat) (tokens : List Token) :
    Blames PlainWhole (plainItem room) tokens := by
  -- The keyword in front is kept by whatever else follows the blamed word, and chooses the reader.
  have declared : ∀ role, headKeyword? tokens = some (roleKeyword role) →
      Blames PlainWhole (fun tokens => declaration role tokens.tail) tokens := by
    intro role met
    obtain ⟨line, rest, rfl⟩ := headKeyword?_eq_some.mp met
    exact (declaration_blames role line rest).skip
  suffices chosen : Blames PlainWhole (plainItemOf room (headKeyword? tokens)) tokens from
    chosen.congr fun tokens' alike => by rw [plainItem_eq, headKeyword?_congr alike]
  unfold plainItemOf
  split
  · exact declared .uniform ‹_›
  · exact declared .varying ‹_›
  · exact declared .output ‹_›
  · exact layoutItem_blames ‹_›
  · exact stageItem_blames .vertex ‹_›
  · exact stageItem_blames .fragment ‹_›
  · -- Nothing was read, and an empty layout is a part.
    have part : PlainWhole (.layout [] 1) [word (Keyword.spelling .vertexLayout) 1,
        sign .leftBrace 1, sign .rightBrace 1] := ⟨0, fun _ => .layout .none⟩
    exact .unexpected _ ⟨_, _, part⟩

end Plain

/-- Readers of top-level parts that blame the words they fail at. -/
structure BlamesItems (readers : ItemParsers) : Prop where
  item : ∀ tokens, Blames (One fun i => (ItemPhrase.item i).Whole) (asWhole readers.item) tokens
  conditional : ∀ {tokens}, startsConditional tokens = true →
    Blames (One fun i => (ItemPhrase.conditional i).Whole) (asWhole readers.conditional) tokens

section Items

open ItemPhrase

variable {room : Nat} {tokens : List Token} {inner : ItemParsers}

/-- What the grammar says of top-level parts and of conditionals of them. -/
theorem itemRules : PartRules .choice (fun i => (ItemPhrase.item i).Whole)
    (fun i => (ItemPhrase.conditional i).Whole) (fun is => (ItemPhrase.region is).Whole)
    fun is => (ItemPhrase.alternative is).Whole where
  nonempty whole := whole.nonempty rfl
  -- Each rule of the grammar is one constructor, with the levels of its parts added up.
  close := Whole.endRegion
  next := Whole.nextInRegion
  without := Whole.without
  otherwise line line' isRegion := Whole.otherwise isRegion line line'
  chained line isFurther := Whole.chained isFurther line
  conditional present line line' line'' free isYes isNo :=
    Whole.conditional free isYes isNo present line line' line''

/-- The word that a conditional among top-level parts fails at is blamed. -/
theorem conditionalItem_blames (blames : BlamesItems inner)
    (starts : startsConditional tokens = true) :
    Blames (One fun i => (ItemPhrase.conditional i).Whole)
      (asWhole (Source.conditional .choice inner.item inner.conditional)) tokens :=
  -- Conditionals among top-level parts follow the same rules as those among statements.
  conditional_blames itemRules blames.item blames.conditional starts

/-- The word that a top-level part fails at is blamed. -/
theorem item_blames (room : Nat) (blames : BlamesItems inner) (tokens : List Token) :
    Blames (One fun i => (ItemPhrase.item i).Whole) (asWhole (Source.item room inner)) tokens := by
  -- The test in front is found in every source that agrees up to the blamed word.
  cases starts : startsConditional tokens with
  | true =>
    refine ((conditionalItem_blames blames starts).mono ?_).congr fun tokens' alike => ?_
    · rintro _ _ ⟨i, rfl, whole⟩
      exact ⟨i, rfl, whole.tested⟩
    · rw [asWhole, Source.item, if_pos ((startsConditional_congr alike).trans starts)]
      rfl
  | false =>
    -- All that does not start with a test is plain.
    have single : Blames (One fun i => (ItemPhrase.item i).Whole) (fun tokens =>
        plainItem room tokens >>= fun read => .ok ([.always read.1], read.2)) tokens :=
      (plainItem_blames room tokens).map (fun i => [.always i]) (fun _ _ => rfl)
        fun whole => ⟨_, rfl, .plain whole⟩
    refine single.congr fun tokens' alike => ?_
    rw [asWhole, Source.item, if_neg (by simp [startsConditional_congr alike, starts])]
    cases plainItem room tokens' <;> rfl

/-- The words that nested top-level parts fail at are blamed. -/
theorem itemParsers_blames (room : Nat) : BlamesItems (itemParsers room) := by
  induction room with
  -- With no level left, the fault is one of the depth.
  | zero => exact ⟨fun _ => .tooDeep, fun _ => .tooDeep⟩
  | succ room ih => exact ⟨item_blames room ih, conditionalItem_blames ih⟩

/-- These words are all parts of a source, wherever it ends behind them. -/
def ItemsWhole (is : List SourceItem) (words : List Token) : Prop :=
  ∃ room, ∀ line rest, (ItemPhrase.items is).Spans room (words ++ ⟨.endOfFile, line⟩ :: rest)
    (⟨.endOfFile, line⟩ :: rest)

/-- All parts of a source are a sentence with its end behind them. -/
theorem ItemsWhole.sentence {is : List SourceItem} {words : List Token} (whole : ItemsWhole is words) :
    Sentence (words ++ [⟨.endOfFile, 1⟩]) := by
  -- Any number of levels will do, and any line for the end.
  obtain ⟨room, spans⟩ := whole
  exact ⟨is, room, 1, spans 1 []⟩

/-- The parts of a source do not have its end among their words. -/
theorem ItemsWhole.noEnd {is : List SourceItem} {words : List Token} (whole : ItemsWhole is words) :
    ∀ token ∈ words, token.isEnd = false := by
  -- The words that are taken are those in front of what is left, and the end can follow them.
  obtain ⟨room, spans⟩ := whole
  obtain ⟨taken, same, noEnd⟩ := (spans 1 []).remains
  rwa [List.append_cancel_right same]

/-- Parts up to the end of a source: none, or a first one and those behind it. -/
def untilEndStep (part : PartsParser SourceItem) (more : Parser (List SourceItem)) :
    Parser (List SourceItem) := fun tokens =>
  if (headToken tokens).isEnd then .ok ([], tokens)
  else do
    let (first, rest) ← asWhole part tokens
    let (more, rest) ← more rest
    return (first ++ more, rest)

/-- Parts up to the end of a source are read without a limit. -/
theorem untilEnd_eq {part : PartsParser SourceItem} (shrinks : Shrinks (asWhole part))
    (tokens : List Token) : asWhole (untilEnd part tokens.length) tokens =
      untilEndStep part (fun rest => asWhole (untilEnd part rest.length) rest) tokens := by
  -- Each part takes a word at least, so the number of words is never used up.
  refine @loop_eq _ Unit (fun limit _ => asWhole (untilEnd part limit))
    (fun more _ => untilEndStep part (more ())) ?_ (fun _ => rfl) ?_ () tokens
  · -- One step of the loop reads a part and goes on behind it.
    intro limit _ tokens
    simp only [asWhole, untilEnd, untilEndStep]
    split
    · rfl
    · exact andThen_toResult _ _
  · -- The rest of the loop only sees words behind a part, and these are fewer.
    intro more more' _ tokens same
    simp only [untilEndStep]
    congr 1
    refine bind_congr fun first read => ?_
    obtain ⟨values, rest⟩ := first
    dsimp only
    rw [same () rest (shrinks read)]

/-- The word that parts up to the end of a source fail at is blamed. -/
theorem untilEnd_blames {part : PartsParser SourceItem}
    (blames : ∀ tokens, Blames (One fun i => (ItemPhrase.item i).Whole) (asWhole part) tokens) (tokens : List Token) :
    Blames ItemsWhole (fun tokens => asWhole (untilEnd part tokens.length) tokens) tokens := by
  have shrinks := shrinks_of_blames blames fun ⟨_, _, whole⟩ => whole.nonempty rfl
  have ended : ItemsWhole [] [] := ⟨0, fun _ _ => .ended⟩
  -- The room that the first part needs is added to that of the others.
  have next : ∀ {i is words words'}, (ItemPhrase.item i).Whole words → ItemsWhole is words' →
      ItemsWhole (i :: is) (words ++ words') := by
    rintro i is words words' isFirst ⟨room, spans⟩
    obtain ⟨least, spansFirst⟩ := isFirst.fits
    refine ⟨least + room, fun line rest => ?_⟩
    rw [List.append_assoc]
    exact .next (spansFirst (by omega) _) ((spans line rest).mono (by omega))
  induction short : tokens.length using Nat.strongRecOn generalizing tokens with
  | _ length ih =>
    subst short
    suffices step : Blames ItemsWhole
        (untilEndStep part fun rest => asWhole (untilEnd part rest.length) rest) tokens from
      step.congr fun tokens' _ => untilEnd_eq shrinks tokens'
    have atEnd : ∀ tokens', headToken tokens' = headToken tokens →
        (headToken tokens').isEnd = (headToken tokens).isEnd := fun _ alike => by rw [alike]
    -- The end of the source is left, so that what was read is completed by it.
    refine .ite atEnd (fun _ => .pure ended) fun _ => ?_
    -- Behind a whole part fewer words are left; one that fails could be completed as the last.
    refine (blames tokens).bind ?_ ?_
    · rintro _ words ⟨first, rfl, isFirst⟩
      exact ⟨_, _, next isFirst ended⟩
    · rintro _ taken rest read - ⟨first, rfl, isFirst⟩
      exact (ih _ (shrinks read) rest rfl).map (first :: ·) (fun _ _ => rfl) (next isFirst)

/-- The word that a source fails at is blamed. -/
theorem sourceItems_blames (room : Nat) (tokens : List Token) :
    Blames ItemsWhole (asWhole (sourceItems room)) tokens :=
  -- The number of levels plays no part, since the reader of nested parts blames within any.
  untilEnd_blames (item_blames room (itemParsers_blames room)) tokens

end Items

end Shading.Grammar

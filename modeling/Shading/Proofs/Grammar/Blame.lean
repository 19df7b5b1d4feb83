import Shading.Proofs.Grammar.Parts

/-! Which word a fault blames: what stands before it can be completed, and with it nothing can. -/

namespace Shading

/-- A fault that names this word. -/
inductive GrammarError.Cause.Names : GrammarError.Cause → Lexeme → Prop
  | unexpected {expected : Expectation} {found : Lexeme} :
    Names (.unexpected expected found) found
  | unknownDataType {name : String} :
    Names (.unknownDataType name) (.identifier name)

/-- A type is blamed where an expression stands, for the word behind it that does not call it. -/
def GrammarError.Cause.IsEarly (cause : GrammarError.Cause) : Prop :=
  ∃ name, cause = .unexpected .expression (.identifier name) ∧ (DataType.ofKeyword? name).isSome

namespace Grammar

open Source

variable {α β : Type}

/-- A fault that names the first of these words and its line. -/
structure Reports (fault : GrammarError) (words : List Token) : Prop where
  line : fault.line = (headToken words).line
  names : fault.cause.Names (headToken words).lexeme

/-- Words that begin like others, as far as it takes to meet a fault at the first of them. -/
structure Alike (fault : GrammarError) (words words' : List Token) : Prop where
  first : headToken words' = headToken words
  second : fault.cause.IsEarly → headToken words'.tail = headToken words.tail

/-- The words that still fit: none, or a type which the word behind it shows not to be called. -/
inductive Fitting (fault : GrammarError) (words : List Token) : List Token → Prop
  | nothing : Fitting fault words []
  | uncalled : fault.cause.IsEarly → Fitting fault words [headToken words]

/-- A word that is blamed for itself does not fit. -/
theorem Fitting.completes {fault : GrammarError} {words fitting : List Token}
    {phrase : α → List Token → Prop} (fits : Fitting fault words fitting)
    (late : ¬ fault.cause.IsEarly) (phrases : ∃ value words, phrase value words) :
    ∃ value more, phrase value (fitting ++ more) := by
  -- Only an early fault lets its own word stand among those that fit.
  cases fits with
  | nothing => exact phrases
  | uncalled early => exact absurd early late

/-- A fault of a reader at one of its words, which is met whatever stands behind this word. -/
structure Refuses (phrase : α → List Token → Prop) (parser : Parser α) (fault : GrammarError)
    (before after : List Token) : Prop where
  reports : Reports fault after
  /-- What stands before the word starts a phrase, and so it does with the word if it is early. -/
  completes : ∀ {fitting}, Fitting fault after fitting →
    ∃ value more, phrase value (before ++ (fitting ++ more))
  refused : ∀ {after'}, Alike fault after after' → parser (before ++ after') = .error fault

/--
A reader takes a phrase from the front of the words, or blames the first word that fits none.

Of the words that it leaves, a reader looks at the first one only.
-/
structure Blames (phrase : α → List Token → Prop) (parser : Parser α) (tokens : List Token) :
    Prop where
  reads : ∀ {value rest}, parser tokens = .ok (value, rest) →
    ∃ taken, tokens = taken ++ rest ∧ phrase value taken ∧
      ∀ {rest'}, headToken rest' = headToken rest → parser (taken ++ rest') = .ok (value, rest')
  refuses : ∀ {fault}, parser tokens = .error fault → fault.cause ≠ .tooDeep →
    ∃ before after, tokens = before ++ after ∧ Refuses phrase parser fault before after

/-- Behind the same words, words with the same first one are the same up to it. -/
theorem headToken_append {words rest rest' : List Token} (same : headToken rest' = headToken rest) :
    headToken (words ++ rest') = headToken (words ++ rest) := by
  -- The first word is one of those in front, if there are any.
  cases words with
  | nil => exact same
  | cons => rfl

/-- Words start with a symbol or not by their first one. -/
theorem startsWith_congr {symbol : Symbol} {tokens tokens' : List Token}
    (same : headToken tokens' = headToken tokens) :
    startsWith symbol tokens' = startsWith symbol tokens := by
  -- The test looks at no more than the first word.
  rw [startsWith, same, startsWith]

/-- The keyword that words start with is told by their first one. -/
theorem headKeyword?_congr {tokens tokens' : List Token}
    (same : headToken tokens' = headToken tokens) : headKeyword? tokens' = headKeyword? tokens := by
  -- The lookup is in the first word only.
  rw [headKeyword?, same, headKeyword?]

/-- Whether words start with a test is told by their first one. -/
theorem startsConditional_congr {tokens tokens' : List Token}
    (same : headToken tokens' = headToken tokens) :
    startsConditional tokens' = startsConditional tokens := by
  -- A test starts with one of two keywords, which are told by the first word.
  rw [startsConditional, headKeyword?_congr same, startsConditional]

/-- Words that do not start with the end of a source have a first one. -/
theorem exists_first {tokens : List Token} {lexeme : Lexeme}
    (first : (headToken tokens).lexeme = lexeme) (notEnd : lexeme ≠ .endOfFile) :
    ∃ line rest, tokens = ⟨lexeme, line⟩ :: rest := by
  -- Where there are no words, the end of the source stands for the first one.
  subst first
  rcases tokens with _ | ⟨⟨_, line⟩, rest⟩
  · exact absurd rfl notEnd
  · exact ⟨line, rest, rfl⟩

/-- Words whose first one is an identifier. -/
theorem exists_word {name : String} {tokens : List Token}
    (lexeme : (headToken tokens).lexeme = .identifier name) :
    ∃ line rest, tokens = word name line :: rest :=
  -- An identifier is not the end of a source.
  exists_first lexeme (by simp)

/-- Whether a name is read depends on the first word. -/
theorem name_eq (expected : Expectation) (tokens : List Token) :
    name expected tokens =
      match (headToken tokens).lexeme with
      | .identifier name =>
        if isReserved name then unexpected expected tokens else .ok (name, tokens.tail)
      | _ => unexpected expected tokens := by
  -- The parser asks for the kind of the first word and for nothing else.
  rcases tokens with _ | ⟨⟨lexeme, line⟩, rest⟩
  · rfl
  · cases lexeme <;> rfl

/-- Whether a data type is read depends on the first word. -/
theorem dataType_eq (tokens : List Token) :
    dataType tokens =
      match (headToken tokens).lexeme with
      | .identifier name =>
        match DataType.ofKeyword? name with
        | some type => .ok (type, tokens.tail)
        | none => .error ⟨(headToken tokens).line, .unknownDataType name⟩
      | _ => unexpected .dataType tokens := by
  -- The parser asks for the text of the first word and for nothing else.
  rcases tokens with _ | ⟨⟨lexeme, line⟩, rest⟩
  · rfl
  · cases lexeme <;> rfl

namespace Blames

variable {phrase : α → List Token → Prop} {parser parser' : Parser α} {tokens rest : List Token}

/-- A reader may be replaced by one that does the same on all words with the same first one. -/
theorem congr (blames : Blames phrase parser' tokens)
    (same : ∀ tokens', headToken tokens' = headToken tokens → parser tokens' = parser' tokens') :
    Blames phrase parser tokens := by
  constructor
  · intro value rest read
    obtain ⟨taken, rfl, isPhrase, again⟩ := blames.reads ((same tokens rfl).symm.trans read)
    refine ⟨taken, rfl, isPhrase, fun alike => ?_⟩
    -- The first word is one that is taken, or the one behind them, which is the same.
    rw [same _ (headToken_append alike)]
    exact again alike
  · -- The same holds of the word that is blamed.
    intro fault failed shallow
    obtain ⟨before, after, rfl, refuses⟩ :=
      blames.refuses ((same tokens rfl).symm.trans failed) shallow
    refine ⟨before, after, rfl, refuses.reports, refuses.completes, fun alike => ?_⟩
    rw [same _ (headToken_append alike.first)]
    exact refuses.refused alike

/--
A reader may be replaced by one that does the same on all words with the same first two.

If it blames the first one, then for what stands behind it.
-/
theorem congr_second (blames : Blames phrase parser' tokens)
    (nonempty : ∀ {value words}, phrase value words → words ≠ [])
    (early : ∀ {fault}, ¬ fault.cause.IsEarly → ¬ Refuses phrase parser' fault [] tokens)
    (same : ∀ tokens', headToken tokens' = headToken tokens →
      headToken tokens'.tail = headToken tokens.tail → parser tokens' = parser' tokens') :
    Blames phrase parser tokens := by
  -- Behind some words of a phrase, the second word is one of them or the first behind them.
  have onward : ∀ {words rest rest' : List Token}, words ≠ [] → tokens = words ++ rest →
      headToken rest' = headToken rest → parser (words ++ rest') = parser' (words ++ rest') := by
    rintro (_ | ⟨first, words⟩) rest rest' some rfl alike
    · exact absurd rfl some
    · exact same _ rfl (headToken_append alike)
  constructor
  · intro value rest read
    obtain ⟨taken, split, isPhrase, again⟩ := blames.reads ((same tokens rfl rfl).symm.trans read)
    exact ⟨taken, split, isPhrase, fun alike =>
      (onward (nonempty isPhrase) split alike).trans (again alike)⟩
  · intro fault failed shallow
    obtain ⟨before, after, split, refuses⟩ :=
      blames.refuses ((same tokens rfl rfl).symm.trans failed) shallow
    refine ⟨before, after, split, refuses.reports, refuses.completes, fun {after'} alike => ?_⟩
    refine Eq.trans ?_ (refuses.refused alike)
    rcases before with _ | ⟨first, before⟩
    · -- Only an early fault is met at the first word, and it holds the second one fixed.
      obtain rfl : tokens = after := split
      have isEarly := Classical.not_not.mp fun late => early late refuses
      exact same after' alike.first (alike.second isEarly)
    · exact onward (List.cons_ne_nil _ _) split alike.first

/-- A phrase of one kind may be one of another kind. -/
theorem mono {phrase' : α → List Token → Prop} (blames : Blames phrase parser tokens)
    (isPhrase : ∀ {value words}, phrase value words → phrase' value words) :
    Blames phrase' parser tokens := by
  constructor
  · intro value rest read
    obtain ⟨taken, same, whole, again⟩ := blames.reads read
    exact ⟨taken, same, isPhrase whole, again⟩
  · -- What completes a phrase of the one kind completes one of the other.
    intro fault failed shallow
    obtain ⟨before, after, same, refuses⟩ := blames.refuses failed shallow
    refine ⟨before, after, same, refuses.reports, fun fits => ?_, refuses.refused⟩
    obtain ⟨value, more, whole⟩ := refuses.completes fits
    exact ⟨value, more, isPhrase whole⟩

/-- Nothing at all is taken. -/
theorem pure {value : α} (isPhrase : phrase value []) :
    Blames phrase (fun tokens => .ok (value, tokens)) tokens := by
  -- A reader that takes nothing cannot fail either.
  constructor
  · rintro _ _ ⟨⟩
    exact ⟨[], rfl, isPhrase, fun _ => rfl⟩
  · rintro _ ⟨⟩

/-- The first word is blamed at once. -/
theorem refuse {fault : GrammarError} (reports : Reports fault tokens)
    (phrases : ∀ {fitting}, Fitting fault tokens fitting →
      ∃ value more, phrase value (fitting ++ more))
    (refused : ∀ {tokens'}, Alike fault tokens tokens' → parser tokens' = .error fault) :
    Blames phrase parser tokens := by
  have here : parser tokens = .error fault := refused ⟨rfl, fun _ => rfl⟩
  constructor
  · intro _ _ read
    cases here.symm.trans read
  · intro _ failed _
    obtain rfl := Except.error.inj (here.symm.trans failed)
    -- Nothing is taken before the fault.
    exact ⟨[], tokens, rfl, reports, phrases, refused⟩

/-- The first word is blamed for not being what is expected. -/
theorem unexpected (expected : Expectation) (phrases : ∃ value words, phrase value words)
    (late : ¬ (GrammarError.Cause.unexpected expected (headToken tokens).lexeme).IsEarly := by
      rintro ⟨_, ⟨⟩, _⟩) : Blames phrase (unexpected expected) tokens := by
  -- The fault has the text and the line of the first word, and no other word is looked at.
  have reports : Reports
      ⟨(headToken tokens).line, .unexpected expected (headToken tokens).lexeme⟩ tokens :=
    ⟨rfl, .unexpected⟩
  exact refuse reports (·.completes late phrases) fun alike => by
    simp [Source.unexpected, alike.first]

/-- A fault of the depth blames no word. -/
theorem tooDeep : Blames phrase tooDeep tokens := by
  -- The claim is about all other faults.
  constructor
  · rintro _ _ ⟨⟩
  · rintro _ ⟨⟩ shallow
    exact absurd rfl shallow

/-- A first word is passed. -/
theorem skip {token : Token} (blames : Blames (fun value words => phrase value (token :: words))
    parser rest) : Blames phrase (fun tokens => parser tokens.tail) (token :: rest) := by
  -- A word in front is part of what is taken, and of what stands in front of the fault.
  constructor
  · intro value behind read
    obtain ⟨taken, rfl, isPhrase, again⟩ := blames.reads read
    exact ⟨token :: taken, rfl, isPhrase, again⟩
  · intro fault failed shallow
    obtain ⟨before, after, rfl, refuses⟩ := blames.refuses failed shallow
    exact ⟨token :: before, after, rfl, refuses.reports, refuses.completes, refuses.refused⟩

/-- A first word is all that is taken. -/
theorem take {lexeme : Lexeme} {value : α} (first : (headToken tokens).lexeme = lexeme)
    (notEnd : lexeme ≠ .endOfFile) (isPhrase : ∀ line, phrase value [⟨lexeme, line⟩])
    (read : ∀ tokens', (headToken tokens').lexeme = lexeme →
      parser tokens' = .ok (value, tokens'.tail)) : Blames phrase parser tokens := by
  -- The word is there, and it is passed whichever words follow.
  obtain ⟨line, rest, rfl⟩ := exists_first first notEnd
  exact (skip (pure (isPhrase line))).congr fun tokens' alike => read tokens' (alike ▸ first)

/-- A choice that depends on the first word only is made between two readers. -/
theorem ite {condition : List Token → Bool}
    (first : ∀ tokens', headToken tokens' = headToken tokens → condition tokens' = condition tokens)
    (yes : condition tokens = true → Blames phrase parser tokens)
    (no : condition tokens = false → Blames phrase parser' tokens) :
    Blames phrase (fun tokens => if condition tokens then parser tokens else parser' tokens)
      tokens := by
  -- The readers differ, but the same one is used on all words with that first one.
  cases holds : condition tokens with
  | true => exact (yes holds).congr fun tokens' alike => if_pos ((first tokens' alike).trans holds)
  | false =>
    refine (no holds).congr fun tokens' alike => if_neg ?_
    simp [first tokens' alike, holds]

/-- A second reader goes on behind a first one. -/
theorem bind {first : Parser α} {next : α × List Token → Except GrammarError (β × List Token)}
    {whole : β → List Token → Prop} (blames : Blames phrase first tokens)
    (complete : ∀ value words, phrase value words → ∃ result more, whole result (words ++ more))
    (after : ∀ value taken rest, first tokens = .ok (value, rest) → tokens = taken ++ rest →
      phrase value taken → Blames (fun result words => whole result (taken ++ words))
        (fun rest => next (value, rest)) rest) :
    Blames whole (fun tokens => first tokens >>= next) tokens := by
  constructor
  · intro result behind read
    obtain ⟨⟨value, rest⟩, readFirst, readNext⟩ := bind_eq_ok.mp read
    obtain ⟨taken, same, isPhrase, again⟩ := blames.reads readFirst
    obtain ⟨more, rfl, isWhole, onceMore⟩ :=
      (after value taken rest readFirst same isPhrase).reads readNext
    refine ⟨taken ++ more, by simp [same], isWhole, fun {rest'} alike => ?_⟩
    -- What follows begins alike behind the second phrase, and so it does behind the first one.
    rw [List.append_assoc, again (headToken_append alike)]
    exact onceMore alike
  · intro fault failed shallow
    cases readFirst : first tokens with
    | error fault' =>
      rw [readFirst] at failed
      obtain rfl : fault' = fault := Except.error.inj failed
      obtain ⟨before, behind, same, refuses⟩ := blames.refuses readFirst shallow
      -- What completes the first phrase is completed by a second one behind it.
      refine ⟨before, behind, same, refuses.reports, fun {fitting} fits => ?_, fun alike => ?_⟩
      · obtain ⟨value, words, isPhrase⟩ := refuses.completes fits
        obtain ⟨result, more, isWhole⟩ := complete value _ isPhrase
        exact ⟨result, words ++ more, by simpa only [List.append_assoc] using isWhole⟩
      · rw [refuses.refused alike]
        rfl
    | ok read =>
      -- In front of words that begin alike, the first reader stops at the same place.
      obtain ⟨value, rest⟩ := read
      rw [readFirst] at failed
      obtain ⟨taken, same, isPhrase, again⟩ := blames.reads readFirst
      obtain ⟨before, behind, rfl, refuses⟩ :=
        (after value taken rest readFirst same isPhrase).refuses failed shallow
      refine ⟨taken ++ before, behind, by simp [same], refuses.reports, fun fits => ?_,
        fun alike => ?_⟩
      · obtain ⟨result, more, isWhole⟩ := refuses.completes fits
        exact ⟨result, more, by simpa only [List.append_assoc] using isWhole⟩
      · rw [List.append_assoc, again (headToken_append alike.first)]
        exact refuses.refused alike

/-- What is read is returned in another form. -/
theorem map {first : Parser α} {next : α × List Token → Except GrammarError (β × List Token)}
    {whole : β → List Token → Prop} (blames : Blames phrase first tokens) (result : α → β)
    (returns : ∀ value rest, next (value, rest) = .ok (result value, rest))
    (isWhole : ∀ {value words}, phrase value words → whole (result value) words) :
    Blames whole (fun tokens => first tokens >>= next) tokens := by
  -- Nothing is read behind the first phrase, so no words are added to it.
  refine blames.bind (fun value words isPhrase => ⟨result value, [], ?_⟩) ?_
  · rw [List.append_nil]
    exact isWhole isPhrase
  · intro value taken rest _ _ isPhrase
    simp only [returns]
    refine .pure ?_
    rw [List.append_nil]
    exact isWhole isPhrase

/-- A symbol is passed, or the word that stands in its place is blamed. -/
theorem expect {next : List Token → Except GrammarError (α × List Token)} (symbol : Symbol)
    (complete : ∃ value more, phrase value (sign symbol 1 :: more))
    (after : ∀ line rest, tokens = sign symbol line :: rest →
      Blames (fun value words => phrase value (sign symbol line :: words)) next rest) :
    Blames phrase (fun tokens => expect symbol tokens >>= next) tokens := by
  -- The symbol is there or it is not, and the first word tells which.
  by_cases starts : startsWith symbol tokens = true
  · obtain ⟨line, rest, rfl⟩ := startsWith_iff.mp starts
    refine (after line rest rfl).skip.congr fun tokens' alike => ?_
    have starts' : startsWith symbol tokens' = true := (startsWith_congr alike).trans starts
    simp [Source.expect, starts']
  · -- The symbol itself could stand in the place of the word.
    obtain ⟨value, more, isPhrase⟩ := complete
    refine (unexpected (.symbol symbol) ⟨value, _, isPhrase⟩).congr fun tokens' alike => ?_
    have differs : ¬ startsWith symbol tokens' = true := by rwa [startsWith_congr alike]
    simp only [Source.expect, if_neg differs]
    rfl

/-- A name is taken, or the word that stands in its place is blamed. -/
theorem name (expected : Expectation) (late : expected ≠ .expression := by nofun) :
    Blames (fun name words => ∃ line, words = [word name line] ∧ isReserved name = false)
      (name expected) tokens := by
  -- Only an identifier can be a name, so that the kind of the first word is asked for.
  have refuse : Blames (fun name words => ∃ line, words = [word name line] ∧
      isReserved name = false) (Source.unexpected expected) tokens :=
    unexpected expected ⟨"x", _, 1, rfl, rfl⟩ fun ⟨_, same, _⟩ => late (by injection same)
  cases lexeme : (headToken tokens).lexeme with
  | identifier name =>
    obtain ⟨line, rest, rfl⟩ := exists_word lexeme
    cases reserved : isReserved name with
    | true =>
      -- A reserved word is blamed like what is no identifier.
      refine refuse.congr fun tokens' alike => ?_
      rw [name_eq, alike]
      simp [reserved]
    | false =>
      refine .take rfl (by simp) (fun line => ⟨line, rfl, reserved⟩) fun tokens' same => ?_
      rw [name_eq, same]
      simp [reserved]
  | _ =>
    refine refuse.congr fun tokens' alike => ?_
    rw [name_eq, alike, lexeme]

/-- A data type is taken, or the word that stands in its place is blamed. -/
theorem dataType :
    Blames (fun type words => ∃ line, words = [word type.keyword line]) dataType tokens := by
  -- Only an identifier can name a type, so that the kind of the first word is asked for.
  have phrases : ∃ type words, ∃ line, words = [word (DataType.keyword type) line] :=
    ⟨.float, _, 1, rfl⟩
  cases lexeme : (headToken tokens).lexeme with
  | identifier name =>
    obtain ⟨line, rest, rfl⟩ := exists_word lexeme
    cases found : DataType.ofKeyword? name with
    | none =>
      -- The fault has the text of the word instead of what was expected.
      have reports : Reports ⟨line, .unknownDataType name⟩ (word name line :: rest) :=
        ⟨rfl, .unknownDataType⟩
      refine refuse reports (·.completes nofun phrases) fun alike => ?_
      rw [dataType_eq, alike.first]
      simp [found]
    | some type =>
      obtain rfl := DataType.ofKeyword?_eq_some.mp found
      refine .take rfl (by simp) (fun line => ⟨line, rfl⟩) fun tokens' same => ?_
      rw [dataType_eq, same]
      simp [found]
  | _ =>
    refine (unexpected .dataType phrases).congr fun tokens' alike => ?_
    rw [dataType_eq, alike, lexeme]

end Blames

/-- A reader that takes at least one word. -/
def Shrinks (parser : Parser α) : Prop :=
  ∀ ⦃tokens value rest⦄, parser tokens = .ok (value, rest) → rest.length < tokens.length

/-- A reader of phrases with a word takes at least one. -/
theorem shrinks_of_blames {phrase : α → List Token → Prop} {parser : Parser α}
    (blames : ∀ tokens, Blames phrase parser tokens)
    (nonempty : ∀ {value words}, phrase value words → words ≠ []) : Shrinks parser := by
  -- The words that are taken are those of the phrase, of which there is at least one.
  intro tokens value rest read
  obtain ⟨taken, rfl, isPhrase, -⟩ := (blames tokens).reads read
  have some := List.length_pos_iff.mpr (nonempty isPhrase)
  rw [List.length_append]
  omega

/-- Two steps are the same when the second ones are, behind whatever the first one gives. -/
theorem bind_congr {first : Except GrammarError α} {next next' : α → Except GrammarError β}
    (same : ∀ value, first = .ok value → next value = next' value) :
    first >>= next = first >>= next' := by
  -- Behind a fault there is no second step.
  cases first with
  | error => rfl
  | ok value => exact same value rfl

/-- A loop that takes a word with every step is not stopped by a limit of as many steps. -/
theorem loop_eq {σ : Type} {loop : Nat → σ → List Token → α}
    {step : (σ → List Token → α) → σ → List Token → α}
    (succ : ∀ limit state tokens, loop (limit + 1) state tokens = step (loop limit) state tokens)
    (stopped : ∀ state, loop 0 state [] = loop 1 state [])
    (shorter : ∀ {more more' : σ → List Token → α} {state tokens},
      (∀ state' rest, rest.length < tokens.length → more state' rest = more' state' rest) →
      step more state tokens = step more' state tokens) (state : σ) (tokens : List Token) :
    loop tokens.length state tokens =
      step (fun state rest => loop rest.length state rest) state tokens := by
  -- Enough steps are as good as any larger number of them.
  have enough : ∀ {tokens : List Token} {limit}, tokens.length ≤ limit → ∀ state,
      loop limit state tokens = loop tokens.length state tokens := by
    intro tokens
    induction short : tokens.length using Nat.strongRecOn generalizing tokens with
    | _ length ih =>
      subst short
      intro limit enough state
      rcases limit with _ | limit
      · rw [Nat.le_zero.mp enough]
      -- Without words the limit is of no use, and otherwise a step leaves fewer.
      rcases tokens with _ | ⟨first, tokens⟩
      · rw [List.length_nil, stopped, succ, succ]
        exact shorter fun _ _ fewer => absurd fewer (Nat.not_lt_zero _)
      · rw [List.length_cons, succ, succ]
        refine shorter fun state' rest fewer => ?_
        have within : rest.length ≤ tokens.length := Nat.le_of_lt_succ fewer
        rw [ih _ fewer rfl (Nat.le_trans within (Nat.le_of_succ_le_succ enough)),
          ih _ fewer rfl within]
  rw [← enough (Nat.le_succ _), succ]
  exact shorter fun state' rest fewer => enough (Nat.le_of_lt fewer) state'

end Grammar

end Shading

import Shading.Proofs.Grammar.Heads

/-! Lists of parts between braces and conditionals of them, whatever the parts are. -/

namespace Shading.Grammar

open Source

variable {α : Type} {part chained : PartsParser α} {tokens rest : List Token}

/-- The keyword of a test for the presence or for the absence of a define. -/
def testKeyword (present : Bool) : Keyword :=
  if present then .ifDefined else .ifUndefined

/-- Words start with a test for a define when one of its keywords is the first of them. -/
theorem startsConditional_iff :
    startsConditional tokens = true ↔
      ∃ present line rest, tokens = word (testKeyword present).spelling line :: rest := by
  constructor
  · intro starts
    -- One keyword tests that a key is defined, the other that it is not.
    unfold startsConditional at starts
    split at starts
    · rename_i met
      exact ⟨true, headKeyword?_eq_some.mp met⟩
    · rename_i met
      exact ⟨false, headKeyword?_eq_some.mp met⟩
    · simp at starts
  · -- In the other direction both keywords are met by computation.
    rintro ⟨present, line, rest, rfl⟩
    cases present <;> rfl

/-- A test for a define is read with its key. -/
theorem guard_eq_ok {present : Bool} {line : Nat} {tested : Shading.Guard} :
    Source.guard (word (testKeyword present).spelling line :: tokens) = .ok (tested, rest) ↔
      ∃ key line', tokens = word key line' :: rest ∧ isReserved key = false ∧
        tested = ⟨key, present⟩ := by
  -- The keyword says whether presence is asked for, and the word behind it is the key.
  have keyword : (headKeyword? (word (testKeyword present).spelling line :: tokens) ==
      some .ifDefined) = present := by
    cases present <;> rfl
  simp only [Source.guard, bind_eq_ok, Prod.exists, List.tail_cons, name_eq_ok, pure_eq_ok, keyword,
    Prod.mk.injEq]
  grind

/-- Whatever parts are read without fault span the words that they take. -/
def SoundParts (parser : PartsParser α) (spans : List α → List Token → List Token → Prop) : Prop :=
  ∀ ⦃tokens rest⦄, (parser tokens).rest = .ok rest → spans (parser tokens).completed tokens rest

/-- A single part is read without fault when its reader accepts it. -/
theorem ofResult_rest_eq_ok {result : Except GrammarError (α × List Token)} :
    (Outcome.ofResult result).rest = .ok rest ↔
      ∃ value, result = .ok (value, rest) ∧ (Outcome.ofResult result).completed = [value] := by
  -- The reader either gives the part or a fault.
  rcases result with _ | ⟨value, after⟩ <;> simp [Outcome.ofResult, Outcome.fault]

/-- Parts are read as a whole when nothing ends their reading early. -/
theorem toResult_eq_ok {outcome : Outcome α} {values : List α} :
    outcome.toResult = .ok (values, rest) ↔ outcome = ⟨values, .ok rest⟩ := by
  -- The parts are given together with the words behind them, or not at all.
  rcases outcome with ⟨completed, _ | after⟩ <;> simp [Outcome.toResult, Except.map]

/-- What is read after an outcome without fault is completed after it. -/
theorem andThen_rest_eq_ok {outcome : Outcome α} {next : PartsParser α} :
    (outcome.andThen next).rest = .ok rest ↔
      ∃ between, outcome.rest = .ok between ∧ (next between).rest = .ok rest ∧
        (outcome.andThen next).completed = outcome.completed ++ (next between).completed := by
  -- A fault of the first reading ends both.
  unfold Outcome.andThen
  cases reading : outcome.rest <;> simp [reading]

/-- Parts up to a closing brace are read one after the other. -/
theorem untilBrace_sound {single ending : List α → List Token → List Token → Prop}
    (partSound : SoundParts part single)
    (close : ∀ {line rest}, ending [] (sign .rightBrace line :: rest) rest)
    (next : ∀ {first more tokens between rest}, single first tokens between →
      ending more between rest → ending (first ++ more) tokens rest)
    (limit : Nat) : SoundParts (untilBrace part limit) ending := by
  intro tokens rest read
  -- By the limit of the loop.
  induction limit generalizing tokens with
  | zero =>
    simp only [untilBrace] at read ⊢
    -- The limit is never met in front of a brace, and an end among the parts is a fault.
    split at read
    · rename_i brace
      obtain ⟨line, after, rfl⟩ := startsWith_iff.mp brace
      cases read
      simpa using close
    · simp [unexpected] at read
  | succ limit ih =>
    simp only [untilBrace] at read ⊢
    split at read
    · rename_i brace
      obtain ⟨line, after, rfl⟩ := startsWith_iff.mp brace
      cases read
      simpa using close
    · rename_i noBrace
      -- A part was read in front of the others, and both have left what is behind them.
      rw [if_neg noBrace]
      split at read
      · simp [unexpected] at read
      · rename_i noEnd
        rw [if_neg noEnd]
        obtain ⟨between, readFirst, readMore, completed⟩ := andThen_rest_eq_ok.mp read
        rw [completed]
        exact next (partSound readFirst) (ih readMore)

/-- Parts between braces are read up to the closing one. -/
theorem braced_rest_eq_ok :
    (braced part tokens).rest = .ok rest ↔
      ∃ line inside, tokens = sign .leftBrace line :: inside ∧
        (untilBrace part inside.length inside).rest = .ok rest ∧
        (braced part tokens).completed = (untilBrace part inside.length inside).completed := by
  unfold braced
  cases opened : expect .leftBrace tokens with
  | error error =>
    -- Without an opening brace there are no parts at all.
    have unopened : ∀ line inside, tokens ≠ sign .leftBrace line :: inside := by
      rintro line inside rfl
      simp at opened
    simp [Outcome.fault, unopened]
  | ok inside =>
    -- The brace was there, so that the parts behind it are what is read.
    obtain ⟨line, rfl⟩ := expect_eq_ok.mp opened
    constructor
    · intro read
      exact ⟨line, inside, rfl, read, rfl⟩
    · rintro ⟨_, _, same, read, -⟩
      cases same
      exact read

/-- What follows the first region of a conditional is nothing, a region or a further conditional. -/
theorem alternative_sound {region alternatives further : List α → List Token → List Token → Prop}
    (regionSound : ∀ limit, SoundParts (untilBrace part limit) region)
    (chainedSound : ∀ {tokens rest}, startsConditional tokens = true →
      (chained tokens).rest = .ok rest → further (chained tokens).completed tokens rest)
    (without : ∀ {rest}, alternatives [] rest rest)
    (otherwise : ∀ {xs line line' tokens rest}, region xs tokens rest →
      alternatives xs
        (word (Keyword.spelling .otherwise) line :: sign .leftBrace line' :: tokens) rest)
    (chain : ∀ {xs line tokens rest}, further xs tokens rest →
      alternatives xs (word (Keyword.spelling .otherwise) line :: tokens) rest) :
    SoundParts (alternative part chained) alternatives := by
  intro tokens rest read
  simp only [alternative] at read ⊢
  -- Behind `else` there is a further conditional if it starts with a test, and a region otherwise.
  split at read
  · rename_i met
    obtain ⟨line, after, rfl⟩ := headKeyword?_eq_some.mp (by simpa using met)
    rw [if_pos met]
    split at read
    · rename_i test
      rw [if_pos test]
      exact chain (chainedSound test read)
    · rename_i noTest
      rw [if_neg noTest]
      -- A region is read between braces.
      obtain ⟨line', inside, inner, readRegion, completed⟩ := braced_rest_eq_ok.mp read
      rw [completed]
      obtain rfl : after = _ := inner
      exact otherwise (regionSound _ readRegion)
  · rename_i unmet
    rw [if_neg unmet]
    cases read
    exact without

/-- A conditional is read with its regions, on the words of which its test stands. -/
theorem conditional_sound {choice : Shading.Guard → List α → List α → α}
    {region alternatives single : List α → List Token → List Token → Prop}
    (regionSound : ∀ limit, SoundParts (untilBrace part limit) region)
    (alternativeSound : SoundParts (alternative part chained) alternatives)
    (whole : ∀ {key present yes no line line' line'' tokens afterYes rest},
      isReserved key = false → region yes tokens afterYes → alternatives no afterYes rest →
      single [choice ⟨key, present⟩ yes no]
        (word (testKeyword present).spelling line :: word key line' :: sign .leftBrace line'' ::
          tokens) rest)
    (starts : startsConditional tokens = true)
    (read : (conditional choice part chained tokens).rest = .ok rest) :
    single (conditional choice part chained tokens).completed tokens rest := by
  obtain ⟨present, line, after, rfl⟩ := startsConditional_iff.mp starts
  simp only [conditional] at read ⊢
  -- A fault in the test or in the first region leaves no words to go on with.
  split at read
  · simp [Outcome.fault] at read
  · rename_i tested afterTest readGuard
    obtain ⟨key, line', rfl, free, rfl⟩ := guard_eq_ok.mp readGuard
    split at read
    · simp at read
    · rename_i afterYes readYes
      obtain ⟨line'', inside, rfl, readRegion, completed⟩ := braced_rest_eq_ok.mp readYes
      -- What was read is the choice between the region and its alternatives.
      rw [completed]
      exact whole free (regionSound _ readRegion) (alternativeSound read)

/-- What words must not start with to start a part between braces. -/
structure StartsPart (tokens : List Token) : Prop where
  noElse : headKeyword? tokens ≠ some .otherwise
  noBrace : startsWith .rightBrace tokens = false
  noEnd : (headToken tokens).isEnd = false

/-- A keyword other than `else` may start a part. -/
theorem startsPart_keyword {keyword : Keyword} (different : keyword ≠ .otherwise) (line : Nat)
    (rest : List Token) : StartsPart (word keyword.spelling line :: rest) :=
  -- Only `else` is a keyword that may follow a part.
  ⟨by simpa using different, by simp, rfl⟩

/-- A test for a define may start a part. -/
theorem startsPart_test (present : Bool) (line : Nat) (rest : List Token) :
    StartsPart (word (testKeyword present).spelling line :: rest) :=
  -- Both keywords of a test may start a part.
  startsPart_keyword (by cases present <;> decide) line rest

/-- A closing brace ends the parts before it. -/
@[simp] theorem untilBrace_close (limit line : Nat) (rest : List Token) :
    untilBrace part limit (sign .rightBrace line :: rest) = ⟨[], .ok rest⟩ := by
  -- The brace is looked for before the limit.
  cases limit <;> simp [untilBrace]

/-- A part is followed by the parts after it. -/
theorem untilBrace_next {first : α} {more : List α} {between : List Token} {limit : Nat}
    (starts : StartsPart tokens) (read : part tokens = ⟨[first], .ok between⟩)
    (readMore : untilBrace part limit between = ⟨more, .ok rest⟩) :
    untilBrace part (limit + 1) tokens = ⟨first :: more, .ok rest⟩ := by
  -- The part is read, and the loop goes on with one step less.
  simp [untilBrace, starts.noBrace, starts.noEnd, read, Outcome.andThen, readMore]

/-- Parts between braces are read as those up to the closing one. -/
@[simp] theorem braced_sign (line : Nat) (inside : List Token) :
    braced part (sign .leftBrace line :: inside) = untilBrace part inside.length inside := by
  -- The opening brace is passed, and the number of words behind it is the limit.
  simp [braced]

/-- An alternative without words is nothing. -/
theorem alternative_without (noElse : headKeyword? rest ≠ some .otherwise) :
    alternative part chained rest = ⟨[], .ok rest⟩ := by
  -- The alternative is only looked for behind `else`.
  simp [alternative, noElse]

/-- A region after `else` is the alternative. -/
theorem alternative_braced (line : Nat) (noTest : startsConditional tokens = false) :
    alternative part chained (word (Keyword.spelling .otherwise) line :: tokens) =
      braced part tokens := by
  -- Without a test behind `else`, a region has to follow.
  simp [alternative, noTest]

/-- A conditional after `else` is the alternative. -/
theorem alternative_chained (line : Nat) (starts : startsConditional tokens = true) :
    alternative part chained (word (Keyword.spelling .otherwise) line :: tokens) =
      chained tokens := by
  -- A test behind `else` makes it a further conditional.
  simp [alternative, starts]

/-- A conditional is a choice between its regions. -/
theorem conditional_eq {choice : Shading.Guard → List α → List α → α} {key : String}
    {yes no : List α} {inside afterYes : List Token} (present : Bool) (line line' line'' : Nat)
    (free : isReserved key = false)
    (readYes : untilBrace part inside.length inside = ⟨yes, .ok afterYes⟩)
    (readNo : alternative part chained afterYes = ⟨no, .ok rest⟩) :
    conditional choice part chained
        (word (testKeyword present).spelling line :: word key line' ::
          sign .leftBrace line'' :: inside) =
      ⟨[choice ⟨key, present⟩ yes no], .ok rest⟩ := by
  -- The test is read first, and each region from what is left by the part before it.
  have readGuard : Source.guard (word (testKeyword present).spelling line :: word key line' ::
      sign .leftBrace line'' :: inside) = .ok (⟨key, present⟩, sign .leftBrace line'' :: inside) :=
    guard_eq_ok.mpr ⟨key, line', rfl, free, rfl⟩
  simp [conditional, readGuard, readYes, readNo]

end Shading.Grammar

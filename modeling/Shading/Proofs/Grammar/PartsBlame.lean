import Shading.Proofs.Grammar.Blame

/-! Which word a fault in a list of parts blames, whatever the parts are. -/

namespace Shading.Grammar

open Source

variable {α : Type} {part chained : PartsParser α} {tokens rest : List Token}

/-- Parts that are read as a whole: nothing is left of them if a fault ends the reading. -/
def asWhole (part : PartsParser α) : Parser (List α) := fun tokens =>
  (part tokens).toResult

/-- Parts that are read one after the other are read as two wholes. -/
theorem andThen_toResult (outcome : Outcome α) (next : PartsParser α) :
    (outcome.andThen next).toResult = do
      let (first, rest) ← outcome.toResult
      let (more, rest) ← asWhole next rest
      return (first ++ more, rest) := by
  -- A fault of the first reading ends both, and otherwise the completed parts are joined.
  rcases outcome with ⟨completed, _ | rest⟩
  · rfl
  · simp only [Outcome.andThen, asWhole, Outcome.toResult, Except.map, ok_bind]
    cases (next rest).rest <;> rfl

/-- A single part is read as the whole of it. -/
theorem ofResult_toResult (result : Except GrammarError (α × List Token)) :
    (Outcome.ofResult result).toResult = do
      let (value, rest) ← result
      return ([value], rest) := by
  -- A fault leaves no part, and a success leaves one.
  rcases result with _ | ⟨value, rest⟩ <;> rfl

/-- Parts up to a closing brace: none, or a first one and those behind it. -/
def untilBraceStep (part : PartsParser α) (more : Parser (List α)) : Parser (List α) := fun tokens =>
  if startsWith .rightBrace tokens then .ok ([], tokens.tail)
  else if (headToken tokens).isEnd then unexpected (.symbol .rightBrace) tokens
  else do
    let (first, rest) ← asWhole part tokens
    let (more, rest) ← more rest
    return (first ++ more, rest)

/-- Parts up to a closing brace are read without a limit. -/
theorem untilBrace_eq (shrinks : Shrinks (asWhole part)) (tokens : List Token) :
    asWhole (untilBrace part tokens.length) tokens =
      untilBraceStep part (fun rest => asWhole (untilBrace part rest.length) rest) tokens := by
  refine @loop_eq _ Unit (fun limit _ => asWhole (untilBrace part limit))
    (fun more _ => untilBraceStep part (more ())) ?_ (fun _ => rfl) ?_ () tokens
  · -- A step with its limit is a step on wholes.
    intro limit _ tokens
    simp only [asWhole, untilBrace, untilBraceStep]
    split
    · rfl
    · split
      · rfl
      · exact andThen_toResult _ _
  · -- The parts behind a first one are read from fewer words.
    intro more more' _ tokens same
    simp only [untilBraceStep]
    congr 2
    refine bind_congr fun first read => ?_
    obtain ⟨values, rest⟩ := first
    dsimp only
    rw [same () rest (shrinks read)]

section Blames

/-- A single part, as a list of one. -/
def One (phrase : α → List Token → Prop) (values : List α) (words : List Token) : Prop :=
  ∃ value, values = [value] ∧ phrase value words

/-- Parts behind an opening brace, up to the closing one. -/
def BetweenBraces (ending : List α → List Token → Prop) (values : List α) (words : List Token) :
    Prop :=
  ∃ line inside, words = sign .leftBrace line :: inside ∧ ending values inside

variable {phrase : α → List Token → Prop} {ending : List α → List Token → Prop}

/-- The word that parts up to a closing brace fail at is blamed. -/
theorem untilBrace_blames (blames : ∀ tokens, Blames (One phrase) (asWhole part) tokens)
    (nonempty : ∀ {value words}, phrase value words → words ≠ [])
    (close : ∀ line, ending [] [sign .rightBrace line])
    (next : ∀ {value more words words'}, phrase value words → ending more words' →
      ending (value :: more) (words ++ words')) (tokens : List Token) :
    Blames ending (fun tokens => asWhole (untilBrace part tokens.length) tokens) tokens := by
  have shrinks := shrinks_of_blames blames fun ⟨_, _, whole⟩ => nonempty whole
  -- By the number of words; a closing brace completes whatever stands before it.
  induction short : tokens.length using Nat.strongRecOn generalizing tokens with
  | _ length ih =>
    subst short
    suffices step : Blames ending (untilBraceStep part fun rest =>
        asWhole (untilBrace part rest.length) rest) tokens from
      step.congr fun tokens' _ => untilBrace_eq shrinks tokens'
    have atEnd : ∀ tokens', headToken tokens' = headToken tokens →
        (headToken tokens').isEnd = (headToken tokens).isEnd := fun _ alike => by rw [alike]
    refine .ite (fun _ => startsWith_congr) (fun brace => ?_) fun _ =>
      .ite atEnd (fun _ => .unexpected _ ⟨_, _, close 1⟩) fun _ => ?_
    · obtain ⟨line, rest, rfl⟩ := startsWith_iff.mp brace
      exact (Blames.skip (.pure (close line))).congr fun _ _ => rfl
    · -- Neither a brace nor the end is next, so that a part has to follow.
      refine (blames tokens).bind ?_ ?_
      · rintro _ words ⟨first, rfl, isFirst⟩
        exact ⟨_, _, next isFirst (close 1)⟩
      · rintro _ taken rest read - ⟨first, rfl, isFirst⟩
        exact (ih _ (shrinks read) rest rfl).map (first :: ·) (fun _ _ => rfl) (next isFirst)

/-- The word that parts between braces fail at is blamed. -/
theorem braced_blames (blames : ∀ tokens, Blames (One phrase) (asWhole part) tokens)
    (nonempty : ∀ {value words}, phrase value words → words ≠ [])
    (close : ∀ line, ending [] [sign .rightBrace line])
    (next : ∀ {value more words words'}, phrase value words → ending more words' →
      ending (value :: more) (words ++ words')) (tokens : List Token) :
    Blames (BetweenBraces ending) (asWhole (braced part)) tokens := by
  -- The brace is passed first, and where it is missing nothing is read inside.
  have opened : ∀ tokens, asWhole (braced part) tokens =
      expect .leftBrace tokens >>= fun rest => asWhole (untilBrace part rest.length) rest := by
    intro tokens
    simp only [asWhole, braced]
    cases expect .leftBrace tokens <;> rfl
  refine .congr (.expect _ ⟨[], _, 1, _, rfl, close 1⟩ ?_) fun tokens' _ => opened tokens'
  rintro line rest rfl
  exact (untilBrace_blames blames nonempty close next rest).mono
    fun isEnding => ⟨line, _, rfl, isEnding⟩

/-- What the grammar says of parts and of conditionals of them, whatever the parts are. -/
structure PartRules (choice : Shading.Guard → List α → List α → α)
    (phrase tested : α → List Token → Prop) (region alternatives : List α → List Token → Prop) :
    Prop where
  nonempty : ∀ {value words}, phrase value words → words ≠ []
  close : ∀ line, region [] [sign .rightBrace line]
  next : ∀ {value more words words'}, phrase value words → region more words' →
    region (value :: more) (words ++ words')
  without : alternatives [] []
  otherwise : ∀ {values words} line line', region values words → alternatives values
    (word (Keyword.spelling .otherwise) line :: sign .leftBrace line' :: words)
  chained : ∀ {value words} line, tested value words →
    alternatives [value] (word (Keyword.spelling .otherwise) line :: words)
  conditional : ∀ {key yes no words words'} present line line' line'', isReserved key = false →
    region yes words → alternatives no words' → tested (choice ⟨key, present⟩ yes no)
      (word (testKeyword present).spelling line :: word key line' :: sign .leftBrace line'' ::
        (words ++ words'))

variable {choice : Shading.Guard → List α → List α → α} {tested : α → List Token → Prop}
  {region alternatives : List α → List Token → Prop}

/-- The word that fails behind the first region of a conditional is blamed. -/
theorem alternative_blames (rules : PartRules choice phrase tested region alternatives)
    (blames : ∀ tokens, Blames (One phrase) (asWhole part) tokens)
    (chainedBlames : ∀ {tokens}, startsConditional tokens = true →
      Blames (One tested) (asWhole chained) tokens) (tokens : List Token) :
    Blames alternatives (asWhole (alternative part chained)) tokens := by
  cases met : headKeyword? tokens == some .otherwise with
  | false =>
    -- Without an `else` there is nothing to take.
    have none : Blames alternatives (fun tokens => .ok ([], tokens)) tokens := .pure rules.without
    refine none.congr fun tokens' alike => ?_
    simp only [asWhole, alternative, headKeyword?_congr alike, met]
    rfl
  | true =>
    obtain ⟨line, rest, rfl⟩ := headKeyword?_eq_some.mp (by simpa using met)
    -- The word behind `else` tells a further conditional from a region.
    have behind : Blames (fun values words => alternatives values
        (word (Keyword.spelling .otherwise) line :: words)) (fun tokens =>
          if startsConditional tokens then asWhole chained tokens
          else asWhole (braced part) tokens) rest := by
      refine .ite (fun _ => startsConditional_congr) (fun starts => ?_) fun _ => ?_
      · refine (chainedBlames starts).mono ?_
        rintro _ words ⟨further, rfl, isFurther⟩
        exact rules.chained line isFurther
      · refine (braced_blames blames rules.nonempty rules.close rules.next rest).mono ?_
        rintro values _ ⟨line', inside, rfl, isRegion⟩
        exact rules.otherwise line line' isRegion
    -- Whether there is an `else` depends on the first word only, on which the sources agree.
    refine behind.skip.congr fun tokens' alike => ?_
    simp only [asWhole, alternative, headKeyword?_congr alike, met, if_true]
    split <;> rfl

/-- The word that a conditional fails at behind its keyword is blamed. -/
theorem regions_blame (rules : PartRules choice phrase tested region alternatives)
    (blames : ∀ tokens, Blames (One phrase) (asWhole part) tokens)
    (chainedBlames : ∀ {tokens}, startsConditional tokens = true →
      Blames (One tested) (asWhole chained) tokens) (present : Bool) (line : Nat)
    (tokens : List Token) :
    Blames (fun values words => One tested values
        (word (testKeyword present).spelling line :: words)) (fun tokens => do
      let (key, rest) ← name .defineName tokens
      let (yes, rest) ← asWhole (braced part) rest
      let (no, rest) ← asWhole (alternative part chained) rest
      return ([choice ⟨key, present⟩ yes no], rest)) tokens := by
  -- A conditional is completed by an empty region, and by no alternative behind its region.
  refine (Blames.name .defineName).bind ?_ ?_
  · rintro key _ ⟨line', rfl, free⟩
    exact ⟨_, _, _, rfl, rules.conditional present line line' 1 free (rules.close 1) rules.without⟩
  rintro key _ rest - - ⟨line', rfl, free⟩
  refine (braced_blames blames rules.nonempty rules.close rules.next rest).bind ?_ ?_
  · rintro yes _ ⟨line'', inside, rfl, isYes⟩
    exact ⟨_, _, _, rfl, rules.conditional present line line' line'' free isYes rules.without⟩
  rintro yes _ rest - - ⟨line'', inside, rfl, isYes⟩
  -- The alternatives are the last that is read, and so whatever completes them completes the whole.
  exact (alternative_blames rules blames chainedBlames rest).map
    (fun no => [choice ⟨key, present⟩ yes no]) (fun _ _ => rfl)
    fun isNo => ⟨_, rfl, rules.conditional present line line' line'' free isYes isNo⟩

/-- The word that a conditional fails at is blamed. -/
theorem conditional_blames (rules : PartRules choice phrase tested region alternatives)
    (blames : ∀ tokens, Blames (One phrase) (asWhole part) tokens)
    (chainedBlames : ∀ {tokens}, startsConditional tokens = true →
      Blames (One tested) (asWhole chained) tokens) (starts : startsConditional tokens = true) :
    Blames (One tested) (asWhole (conditional choice part chained)) tokens := by
  obtain ⟨present, line, rest, rfl⟩ := startsConditional_iff.mp starts
  have behind := regions_blame rules blames chainedBlames present line rest
  refine behind.skip.congr fun tokens' alike => ?_
  -- Which keyword it is tells what the conditional tests for.
  have test : (headKeyword? tokens' == some .ifDefined) = present := by
    rw [headKeyword?_congr alike]
    cases present <;> rfl
  simp only [asWhole, conditional, Source.guard, test]
  cases name .defineName tokens'.tail with
  | error => rfl
  | ok read =>
    -- Whichever region fails, nothing is left of the whole.
    simp only [ok_bind, pure_eq]
    rcases braced part read.2 with ⟨yes, _ | rest⟩
    · rfl
    · simp only [Outcome.toResult, Except.map, ok_bind]
      cases (alternative part chained rest).rest <;> rfl

end Blames

end Shading.Grammar

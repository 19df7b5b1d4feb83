import Shading.Proofs.Grammar.BodyComplete
import Shading.Proofs.Grammar.ExprBlame
import Shading.Proofs.Grammar.PartsBlame

/-! Which word a fault of a statement blames. -/

namespace Shading.Grammar

open Source BodyPhrase

/-- These words are a phrase, whatever follows them. -/
def BodyPhrase.Whole (phrase : BodyPhrase) (words : List Token) : Prop :=
  ∃ room, ∀ rest, phrase.Spans room (words ++ rest) rest

namespace BodyPhrase.Whole

variable {phrase : BodyPhrase} {words first second third : List Token} {line line' line'' : Nat}
  {target value condition e : Expr} {name : String} {s : SourceStatement}
  {ss yes no : List SourceStatement}

/-- A phrase that takes a word has one. -/
theorem nonempty (whole : phrase.Whole words) (takes : phrase.leastLength = 1) : words ≠ [] := by
  -- A phrase that had no words would span nothing, which is too little.
  obtain ⟨room, spans⟩ := whole
  rintro rfl
  have fewer := (spans []).length_le
  rw [takes] at fewer
  simp at fewer

/-- A phrase fits within any number of levels from some number on. -/
theorem fits (whole : phrase.Whole words) :
    ∃ least, ∀ {room}, least ≤ room → ∀ rest, phrase.Spans room (words ++ rest) rest := by
  -- The levels of the phrase are enough, and more of them do no harm.
  obtain ⟨room, spans⟩ := whole
  exact ⟨room, fun enough rest => (spans rest).mono enough⟩

/-- A local variable is declared without a value. -/
theorem declare (free : isReserved name = false) (type : DataType) (line line' line'' : Nat) :
    (statement (.declare ⟨type, name⟩ none)).Whole
      [word type.keyword line, word name line', sign .semicolon line''] :=
  -- There is no expression in it that could need a level.
  ⟨0, fun _ => .declare free⟩

/-- A local variable is declared with its value. -/
theorem initialise (isValue : (ExprPhrase.expression value).Whole words)
    (free : isReserved name = false) (type : DataType) (line line' line'' line''' : Nat) :
    (statement (.declare ⟨type, name⟩ (some value))).Whole
      (word type.keyword line :: word name line' :: sign .assign line'' ::
        (words ++ [sign .semicolon line'''])) := by
  -- The levels are those of the value.
  obtain ⟨room, spans⟩ := isValue
  refine ⟨room, fun rest => ?_⟩
  simp only [List.append_assoc, List.cons_append]
  exact .initialise free (spans _)

/-- What can be assigned to is assigned to. -/
theorem assign (isTarget : (ExprPhrase.expression target).Whole first)
    (assignable : target.isAssignable = true) (isValue : (ExprPhrase.expression value).Whole second)
    (op : AssignOp) (line line' : Nat) : (statement (.assign target op value)).Whole
      (first ++ sign op.symbol line :: (second ++ [sign .semicolon line'])) := by
  -- Two expressions are within the levels of both together.
  obtain ⟨least, spans⟩ := isTarget.fits
  obtain ⟨least', spans'⟩ := isValue.fits
  refine ⟨least + least', fun rest => ?_⟩
  simp only [List.append_assoc, List.cons_append]
  exact .assign (spans (by omega) _) assignable (spans' (by omega) _)

/-- An expression stands alone. -/
theorem evaluate (whole : (ExprPhrase.expression e).Whole words) (line : Nat) :
    (statement (.evaluate e)).Whole (words ++ [sign .semicolon line]) := by
  -- The semicolon needs no level of its own.
  obtain ⟨room, spans⟩ := whole
  refine ⟨room, fun rest => ?_⟩
  rw [List.append_assoc]
  exact .evaluate (spans _)

/-- A fragment is discarded. -/
theorem discard (line line' : Nat) : (statement .discard).Whole
    [word (Keyword.spelling .discard) line, sign .semicolon line'] :=
  -- There is no expression in it that could need a level.
  ⟨0, fun _ => .discard⟩

/-- A stage is left. -/
theorem leave (line line' : Nat) : (statement .leave).Whole
    [word (Keyword.spelling .leave) line, sign .semicolon line'] :=
  -- There is no expression in it that could need a level.
  ⟨0, fun _ => .leave⟩

/-- An `if` is a statement. -/
theorem selected (whole : (selection s).Whole words) : (statement s).Whole words := by
  -- A selection is as deep as a statement as it is on its own.
  obtain ⟨room, spans⟩ := whole
  exact ⟨room, fun rest => .selected (spans rest)⟩

/-- A conditional is a statement. -/
theorem tested (whole : (conditional s).Whole words) : (statement s).Whole words := by
  -- A conditional is as deep as a statement as it is on its own.
  obtain ⟨room, spans⟩ := whole
  exact ⟨room, fun rest => .tested (spans rest)⟩

/-- An `if` without an alternative. -/
theorem ifThen (isCondition : (ExprPhrase.expression condition).Whole first)
    (isYes : (block yes).Whole second) (line line' line'' : Nat) :
    (selection (.ifThen condition yes)).Whole (word (Keyword.spelling .selection) line ::
      sign .leftParen line' :: (first ++ sign .rightParen line'' :: second)) := by
  -- The condition and the block share the levels of both together.
  obtain ⟨least, spans⟩ := isCondition.fits
  obtain ⟨least', spans'⟩ := isYes.fits
  refine ⟨least + least', fun rest => ?_⟩
  simp only [List.append_assoc, List.cons_append]
  exact .ifThen (spans (by omega) _) (spans' (by omega) _)

/-- An `if` with a block for its alternative. -/
theorem ifThenElse (isCondition : (ExprPhrase.expression condition).Whole first)
    (isYes : (block yes).Whole second) (isNo : (block no).Whole third)
    (line line' line'' line''' : Nat) :
    (selection (.ifThenElse condition yes no)).Whole (word (Keyword.spelling .selection) line ::
      sign .leftParen line' :: (first ++ sign .rightParen line'' ::
        (second ++ word (Keyword.spelling .otherwise) line''' :: third))) := by
  -- The three parts share the levels of all of them together.
  obtain ⟨least, spans⟩ := isCondition.fits
  obtain ⟨least', spans'⟩ := isYes.fits
  obtain ⟨least'', spans''⟩ := isNo.fits
  refine ⟨least + least' + least'', fun rest => ?_⟩
  simp only [List.append_assoc, List.cons_append]
  exact .ifThenElse (spans (by omega) _) (spans' (by omega) _) (spans'' (by omega) _)

/-- An `if` with a further `if` for its alternative. -/
theorem ifElseIf (isCondition : (ExprPhrase.expression condition).Whole first)
    (isYes : (block yes).Whole second) (isNo : (selection s).Whole third)
    (line line' line'' line''' : Nat) :
    (selection (.ifThenElse condition yes [s])).Whole (word (Keyword.spelling .selection) line ::
      sign .leftParen line' :: (first ++ sign .rightParen line'' ::
        (second ++ word (Keyword.spelling .otherwise) line''' :: third))) := by
  -- An `if` behind `else` is nested, which takes a level more.
  obtain ⟨least, spans⟩ := isCondition.fits
  obtain ⟨least', spans'⟩ := isYes.fits
  obtain ⟨least'', spans''⟩ := isNo.fits
  refine ⟨least + least' + least'' + 1, fun rest => ?_⟩
  simp only [List.append_assoc, List.cons_append]
  exact .ifElseIf (spans (by omega) _) (spans' (by omega) _) (spans'' (by omega) _)

/-- A conditional consists of its regions. -/
theorem conditional {key : String} (free : isReserved key = false) (isYes : (region yes).Whole first)
    (isNo : (alternative no).Whole second) (present : Bool) (line line' line'' : Nat) :
    (BodyPhrase.conditional (.choice ⟨key, present⟩ yes no)).Whole
      (word (testKeyword present).spelling line :: word key line' :: sign .leftBrace line'' ::
        (first ++ second)) := by
  -- The levels of the two regions are put together.
  obtain ⟨least, spans⟩ := isYes.fits
  obtain ⟨least', spans'⟩ := isNo.fits
  refine ⟨least + least', fun rest => ?_⟩
  simp only [List.append_assoc, List.cons_append]
  exact .conditional free (spans (by omega) _) (spans' (by omega) _)

/-- Statements up to a closing brace are a block. -/
theorem block (whole : (blockEnd ss).Whole words) (line : Nat) :
    (BodyPhrase.block ss).Whole (sign .leftBrace line :: words) := by
  -- The statements of a block are nested in it.
  obtain ⟨room, spans⟩ := whole
  exact ⟨room + 1, fun rest => .block (spans rest)⟩

/-- A closing brace ends a block. -/
theorem endBlock (line : Nat) : (blockEnd []).Whole [sign .rightBrace line] :=
  -- Without a statement no level is needed.
  ⟨0, fun _ => .endBlock⟩

/-- A statement stands in front of those behind it in a block. -/
theorem nextInBlock (isFirst : (statement s).Whole first) (areMore : (blockEnd ss).Whole second) :
    (blockEnd (s :: ss)).Whole (first ++ second) := by
  -- The levels of the first statement and of the others are put together.
  obtain ⟨least, spans⟩ := isFirst.fits
  obtain ⟨least', spans'⟩ := areMore.fits
  refine ⟨least + least', fun rest => ?_⟩
  rw [List.append_assoc]
  exact .nextInBlock (spans (by omega) _) (spans' (by omega) _)

/-- A closing brace ends a region. -/
theorem endRegion (line : Nat) : (region []).Whole [sign .rightBrace line] :=
  -- Without a statement no level is needed.
  ⟨0, fun _ => .endRegion⟩

/-- A statement stands in front of those behind it in a region. -/
theorem nextInRegion (isFirst : (statement s).Whole first) (areMore : (region ss).Whole second) :
    (region (s :: ss)).Whole (first ++ second) := by
  -- Statements of a region are nested one by one, which takes a level more.
  obtain ⟨least, spans⟩ := isFirst.fits
  obtain ⟨least', spans'⟩ := areMore.fits
  refine ⟨least + least' + 1, fun rest => ?_⟩
  rw [List.append_assoc]
  exact .nextInRegion (spans (by omega) _) (spans' (by omega) _)

/-- An alternative may be left out. -/
theorem without : (alternative []).Whole [] :=
  -- There is nothing to be nested.
  ⟨0, fun _ => .without⟩

/-- A region behind `else` is an alternative. -/
theorem otherwise (whole : (region ss).Whole words) (line line' : Nat) :
    (alternative ss).Whole
      (word (Keyword.spelling .otherwise) line :: sign .leftBrace line' :: words) := by
  -- The region is as deep as an alternative as it is on its own.
  obtain ⟨room, spans⟩ := whole
  exact ⟨room, fun rest => .otherwise (spans rest)⟩

/-- A conditional behind `else` is an alternative. -/
theorem chained (whole : (BodyPhrase.conditional s).Whole words) (line : Nat) :
    (alternative [s]).Whole (word (Keyword.spelling .otherwise) line :: words) := by
  -- A conditional behind `else` is nested, which takes a level more.
  obtain ⟨room, spans⟩ := whole
  exact ⟨room + 1, fun rest => .chained (spans rest)⟩

end BodyPhrase.Whole

variable {room : Nat} {tokens : List Token}

/-- The word that the declaration of a local variable fails at is blamed. -/
theorem localDeclaration_blames (room : Nat) (tokens : List Token) :
    Blames (fun s => (BodyPhrase.statement s).Whole) (localDeclaration room) tokens := by
  -- Up to an assignment, what stands before a word is completed to a declaration without a value.
  refine Blames.dataType.bind ?_ ?_
  · rintro type _ ⟨line, rfl⟩
    exact ⟨_, _, @Whole.declare "x" rfl type line 1 1⟩
  rintro type _ rest - - ⟨line, rfl⟩
  refine (Blames.name .variableName).bind ?_ ?_
  · rintro name _ ⟨line', rfl, free⟩
    exact ⟨_, _, Whole.declare free type line line' 1⟩
  rintro name _ rest - - ⟨line', rfl, free⟩
  -- Behind the name, a value or the end of the declaration follows.
  refine .ite (fun _ => startsWith_congr) (fun assigned => ?_) fun _ => ?_
  · obtain ⟨line'', rest, rfl⟩ := startsWith_iff.mp assigned
    refine .skip ((expression_blames room rest).bind (fun value words isValue => ?_)
      fun value words rest _ _ isValue => ?_)
    · exact ⟨_, _, Whole.initialise isValue free type line line' line'' 1⟩
    refine .expect _ ⟨_, [], Whole.initialise isValue free type line line' line'' 1⟩ ?_
    rintro line''' rest rfl
    exact .pure (Whole.initialise isValue free type line line' line'' line''')
  · refine .expect _ ⟨_, [], Whole.declare free type line line' 1⟩ ?_
    rintro line'' rest rfl
    exact .pure (Whole.declare free type line line' line'')

/-- The assignment that words start with is told by their first one. -/
theorem headAssign?_congr {tokens' : List Token} (same : headToken tokens' = headToken tokens) :
    headAssign? tokens' = headAssign? tokens := by
  -- The lookup is in the first word only.
  rw [headAssign?, same, headAssign?]

/-- The word that fails behind the symbol of an assignment is blamed. -/
theorem assigned_blames {target : Expr} {words : List Token} (room : Nat)
    (isTarget : (ExprPhrase.expression target).Whole words)
    (assignable : target.isAssignable = true) (op : AssignOp) (line : Nat) (rest : List Token) :
    Blames (fun s after => (BodyPhrase.statement s).Whole (words ++ sign op.symbol line :: after))
      (fun tokens => do
        let (value, rest) ← Source.expression room tokens
        let rest ← expect .semicolon rest
        return (.assign target op value, rest)) rest := by
  -- A value that fails is blamed as an expression, and a word behind it for being no semicolon.
  refine (expression_blames room rest).bind (fun value words isValue => ?_)
    fun value words rest _ _ isValue => ?_
  · exact ⟨_, _, Whole.assign isTarget assignable isValue op line 1⟩
  refine .expect _ ⟨_, [], Whole.assign isTarget assignable isValue op line 1⟩ ?_
  rintro line' rest rfl
  exact .pure (Whole.assign isTarget assignable isValue op line line')

/-- The word that an assignment fails at is blamed, or that an expression alone fails at. -/
theorem assignment_blames (room : Nat) (tokens : List Token) :
    Blames (fun s => (BodyPhrase.statement s).Whole) (assignment room) tokens := by
  refine (expression_blames room tokens).bind (fun target words isTarget => ?_)
    fun target words rest _ _ isTarget => ?_
  · exact ⟨_, _, Whole.evaluate isTarget 1⟩
  -- The word behind the expression tells what the statement is.
  cases met : headAssign? rest with
  | none =>
    have alone : Blames (fun s after => (BodyPhrase.statement s).Whole (words ++ after))
        (fun tokens => do
          let rest ← expect .semicolon tokens
          return (.evaluate target, rest)) rest := by
      refine .expect _ ⟨_, [], Whole.evaluate isTarget 1⟩ ?_
      rintro line rest rfl
      exact .pure (Whole.evaluate isTarget line)
    refine alone.congr fun tokens' alike => ?_
    simp only [(headAssign?_congr alike).trans met]
  | some op =>
    obtain ⟨line, rest, rfl⟩ := headAssign?_eq_some.mp met
    cases assignable : target.isAssignable with
    | false =>
      -- What cannot be assigned to ends where it stands.
      have refuse : Blames (fun s after => (BodyPhrase.statement s).Whole (words ++ after))
          (unexpected (.symbol .semicolon)) (sign op.symbol line :: rest) :=
        .unexpected _ ⟨_, _, Whole.evaluate isTarget 1⟩
      refine refuse.congr fun tokens' alike => ?_
      simp only [(headAssign?_congr alike).trans met, assignable]
      rfl
    | true =>
      -- The symbol is passed, and the value is read next.
      refine (assigned_blames room isTarget assignable op line rest).skip.congr
        fun tokens' alike => ?_
      simp only [(headAssign?_congr alike).trans met, assignable]
      rfl

/-- The words declare a local variable: a type stands before another identifier. -/
def startsDeclaration (tokens : List Token) : Bool :=
  match (headToken tokens).lexeme with
  | .identifier name => (DataType.ofKeyword? name).isSome && startsWithIdentifier tokens.tail
  | _ => false

/-- What holds no other statements and is no keyword is a declaration or an assignment. -/
theorem simpleStatement_eq (noDiscard : headKeyword? tokens ≠ some .discard)
    (noLeave : headKeyword? tokens ≠ some .leave) :
    simpleStatement room tokens =
      if startsDeclaration tokens then localDeclaration room tokens else assignment room tokens := by
  -- Of the keywords only two start such a statement, and a type decides between the other two.
  unfold simpleStatement
  split
  · exact absurd ‹_› noDiscard
  · exact absurd ‹_› noLeave
  · cases lexeme : (headToken tokens).lexeme <;> simp [startsDeclaration, lexeme]

/-- A type that is not called is no expression, unless there is no room for one. -/
theorem assignment_type (type : DataType) (line : Nat) :
    assignment room [word type.keyword line] =
        .error ⟨line, .unexpected .expression (.identifier type.keyword)⟩ ∨
      assignment room [word type.keyword line] = tooDeep [word type.keyword line] := by
  -- With some room left, the word behind the type is missed at once.
  cases room with
  | zero => exact .inr rfl
  | succ room => left; cases type <;> rfl

/-- A type and a name behind it declare a local variable. -/
theorem startsDeclaration_iff : startsDeclaration tokens = true ↔
    ∃ (type : DataType) (line : Nat) (rest : List Token),
      tokens = word type.keyword line :: rest ∧ startsWithIdentifier rest = true := by
  -- Both words are looked at, the first one for its text and the second one for its kind.
  constructor
  · intro starts
    unfold startsDeclaration at starts
    split at starts
    · obtain ⟨line, rest, rfl⟩ := exists_word ‹_›
      obtain ⟨found, named⟩ := Bool.and_eq_true_iff.mp starts
      obtain ⟨type, found⟩ := Option.isSome_iff_exists.mp found
      exact ⟨type, line, rest, by rw [DataType.ofKeyword?_eq_some.mp found], named⟩
    · cases starts
  · -- The other way round, both looks succeed.
    rintro ⟨type, line, rest, rfl, named⟩
    simp [startsDeclaration, named]

/-- The word that a statement fails at is blamed where a type is its first word. -/
theorem typed_blames (room : Nat) (type : DataType) (line : Nat) (rest : List Token) :
    Blames (fun s => (BodyPhrase.statement s).Whole)
      (fun tokens => if startsDeclaration tokens then localDeclaration room tokens
        else assignment room tokens) (word type.keyword line :: rest) := by
  have takes : ∀ {s words}, (BodyPhrase.statement s).Whole words → words ≠ [] :=
    fun whole => whole.nonempty rfl
  -- Two words decide which of the readers is used.
  have starts : ∀ {tokens'}, headToken tokens' = word type.keyword line →
      headToken tokens'.tail = headToken rest →
      startsDeclaration tokens' = startsWithIdentifier rest := by
    intro tokens' first second
    simp [startsDeclaration, first, startsWithIdentifier, second]
  cases named : startsWithIdentifier rest with
  | true =>
    refine (localDeclaration_blames room _).congr_second takes ?_ fun tokens' first second => ?_
    · -- A type is not blamed in front of a name: a declaration starts with it.
      intro fault late refuses
      have refused : localDeclaration room
          [word type.keyword line, word "x" 1, sign .semicolon 1] = .error fault :=
        refuses.refused ⟨rfl, fun early => absurd early late⟩
      cases type <;> cases refused
    · exact if_pos ((starts first second).trans named)
  | false =>
    refine (assignment_blames room _).congr_second takes ?_ fun tokens' first second => ?_
    · -- A type that is blamed is not called.
      intro fault late refuses
      have refused : assignment room [word type.keyword line] = .error fault :=
        refuses.refused ⟨rfl, fun early => absurd early late⟩
      rcases assignment_type type line with met | met
      · obtain rfl := Except.error.inj (met.symm.trans refused)
        exact late ⟨_, rfl, by simp⟩
      · obtain rfl := Except.error.inj (met.symm.trans refused)
        cases refuses.reports.names
    · exact if_neg (by simp [starts first second, named])

/-- What does not close a statement of a single word is blamed. -/
theorem closed_blames {s : SourceStatement} {first : Token} {rest : List Token}
    (whole : ∀ line, (BodyPhrase.statement s).Whole [first, sign .semicolon line]) :
    Blames (fun s => (BodyPhrase.statement s).Whole) (fun tokens => do
      let rest ← expect .semicolon tokens.tail
      return (s, rest)) (first :: rest) := by
  -- Behind the word, only the semicolon can be missing.
  have behind : Blames (fun s words => (BodyPhrase.statement s).Whole (first :: words))
      (fun tokens => do
        let rest ← expect .semicolon tokens
        return (s, rest)) rest := by
    refine .expect _ ⟨s, [], whole 1⟩ ?_
    rintro line rest rfl
    exact .pure (whole line)
  exact behind.skip

/-- The word that a statement without others in it fails at is blamed. -/
theorem simpleStatement_blames (room : Nat) (tokens : List Token) :
    Blames (fun s => (BodyPhrase.statement s).Whole) (simpleStatement room) tokens := by
  -- The first word may be one of two keywords, which have readers of their own.
  by_cases discard : headKeyword? tokens = some .discard
  · obtain ⟨line, rest, rfl⟩ := headKeyword?_eq_some.mp discard
    refine (closed_blames (Whole.discard line)).congr fun tokens' alike => ?_
    simp only [simpleStatement, (headKeyword?_congr alike).trans discard]
  by_cases leave : headKeyword? tokens = some .leave
  · obtain ⟨line, rest, rfl⟩ := headKeyword?_eq_some.mp leave
    refine (closed_blames (Whole.leave line)).congr fun tokens' alike => ?_
    simp only [simpleStatement, (headKeyword?_congr alike).trans leave]
  -- All other statements are told apart by their first two words.
  have chosen : ∀ tokens', headToken tokens' = headToken tokens → simpleStatement room tokens' =
      if startsDeclaration tokens' then localDeclaration room tokens'
      else assignment room tokens' := fun tokens' alike =>
    simpleStatement_eq (by rwa [headKeyword?_congr alike]) (by rwa [headKeyword?_congr alike])
  -- The second word is looked at behind a type only.
  by_cases typed : ∃ (type : DataType) (line : Nat) (rest : List Token),
      tokens = word type.keyword line :: rest
  · obtain ⟨type, line, rest, rfl⟩ := typed
    exact (typed_blames room type line rest).congr chosen
  · refine (assignment_blames room tokens).congr fun tokens' alike => ?_
    rw [chosen tokens' alike, if_neg]
    intro starts
    obtain ⟨type, line, rest, rfl, -⟩ := startsDeclaration_iff.mp starts
    obtain ⟨_, _, same⟩ := exists_word (congrArg Token.lexeme alike).symm
    exact typed ⟨type, _, _, same⟩

/-- What the grammar says of statements and of conditionals of them. -/
theorem statementRules : PartRules .choice (fun s => (BodyPhrase.statement s).Whole)
    (fun s => (BodyPhrase.conditional s).Whole) (fun ss => (BodyPhrase.region ss).Whole)
    fun ss => (BodyPhrase.alternative ss).Whole where
  nonempty whole := whole.nonempty rfl
  -- All rules were shown as closure properties of whole phrases.
  close := Whole.endRegion
  next := Whole.nextInRegion
  without := Whole.without
  otherwise line line' isRegion := Whole.otherwise isRegion line line'
  chained line isFurther := Whole.chained isFurther line
  conditional present line line' line'' free isYes isNo :=
    Whole.conditional free isYes isNo present line line' line''

/-- Readers of parts of a body that blame the words they fail at. -/
structure BlamesBodies (readers : BodyParsers) : Prop where
  statement : ∀ tokens, Blames (One fun s => (BodyPhrase.statement s).Whole)
    (asWhole readers.statement) tokens
  conditional : ∀ {tokens}, startsConditional tokens = true →
    Blames (One fun s => (BodyPhrase.conditional s).Whole) (asWhole readers.conditional) tokens
  selection : ∀ {tokens}, headKeyword? tokens = some .selection →
    Blames (fun s => (BodyPhrase.selection s).Whole) readers.selection tokens
  block : ∀ tokens, Blames (fun ss => (BodyPhrase.block ss).Whole) readers.block tokens

variable {inner : BodyParsers}

/-- Reads what may follow the first block of an `if`. -/
def selectionEnd (inner : BodyParsers) (condition : Expr) (yes : List SourceStatement) :
    Parser SourceStatement := fun tokens =>
  if headKeyword? tokens == some .otherwise then
    if headKeyword? tokens.tail == some .selection then do
      let (no, rest) ← inner.selection tokens.tail
      return (.ifThenElse condition yes [no], rest)
    else do
      let (no, rest) ← inner.block tokens.tail
      return (.ifThenElse condition yes no, rest)
  else .ok (.ifThen condition yes, tokens)

/-- The word that the alternative of an `if` fails at is blamed. -/
theorem selectionEnd_blames (blames : BlamesBodies inner) {condition : Expr}
    {yes : List SourceStatement} {phrase : SourceStatement → List Token → Prop}
    (alone : phrase (.ifThen condition yes) [])
    (chained : ∀ {no words} line, (BodyPhrase.selection no).Whole words →
      phrase (.ifThenElse condition yes [no]) (word (Keyword.spelling .otherwise) line :: words))
    (otherwise : ∀ {no words} line, (BodyPhrase.block no).Whole words →
      phrase (.ifThenElse condition yes no) (word (Keyword.spelling .otherwise) line :: words))
    (tokens : List Token) : Blames phrase (selectionEnd inner condition yes) tokens := by
  have tested : ∀ {keyword tokens} tokens', headToken tokens' = headToken tokens →
      (headKeyword? tokens' == some keyword) = (headKeyword? tokens == some keyword) :=
    fun _ alike => by rw [headKeyword?_congr alike]
  -- An `if` needs no alternative, so that what follows it is no fault of it.
  refine .ite tested (fun met => ?_) fun _ => .pure alone
  obtain ⟨line, rest, rfl⟩ := headKeyword?_eq_some.mp (by simpa using met)
  have behind : Blames (fun s words => phrase s (word (Keyword.spelling .otherwise) line :: words))
      (fun tokens =>
        if headKeyword? tokens == some .selection then do
          let (no, rest) ← inner.selection tokens
          return (.ifThenElse condition yes [no], rest)
        else do
          let (no, rest) ← inner.block tokens
          return (.ifThenElse condition yes no, rest)) rest := by
    -- Behind `else` there is a further `if` or a block.
    refine .ite tested (fun further => ?_) fun _ => ?_
    · exact (blames.selection (by simpa using further)).map
        (fun no => .ifThenElse condition yes [no]) (fun _ _ => rfl) (chained line)
    · exact (blames.block rest).map (.ifThenElse condition yes ·) (fun _ _ => rfl) (otherwise line)
  exact behind.skip

/-- The word that an `if` fails at behind its keyword is blamed. -/
theorem condition_blames (room : Nat) (blames : BlamesBodies inner) (line : Nat)
    (tokens : List Token) :
    Blames (fun s words => (BodyPhrase.selection s).Whole
        (word (Keyword.spelling .selection) line :: words)) (fun tokens => do
      let rest ← expect .leftParen tokens
      let (condition, rest) ← Source.expression room rest
      let rest ← expect .rightParen rest
      let (yes, rest) ← inner.block rest
      selectionEnd inner condition yes rest) tokens := by
  -- An empty block completes what stands before the first one.
  have empty : (BodyPhrase.block []).Whole _ := Whole.block (Whole.endBlock 1) 1
  refine .expect _ ⟨_, _, Whole.ifThen .placeholder empty line 1 1⟩ ?_
  rintro line' rest rfl
  refine (expression_blames room rest).bind (fun condition words isCondition => ?_)
    fun condition words rest _ _ isCondition => ?_
  · exact ⟨_, _, Whole.ifThen isCondition empty line line' 1⟩
  refine .expect _ ⟨_, _, Whole.ifThen isCondition empty line line' 1⟩ ?_
  rintro line'' rest rfl
  -- With the first block there is a whole `if`, so its alternative is asked for.
  refine (blames.block rest).bind (fun yes words isYes => ?_) fun yes words rest _ _ isYes => ?_
  · exact ⟨_, [], by simpa using Whole.ifThen isCondition isYes line line' line''⟩
  · exact selectionEnd_blames blames
      (by simpa using Whole.ifThen isCondition isYes line line' line'')
      (fun line''' isNo => Whole.ifElseIf isCondition isYes isNo line line' line'' line''')
      (fun line''' isNo => Whole.ifThenElse isCondition isYes isNo line line' line'' line''') rest

/-- The word that an `if` fails at is blamed. -/
theorem selection_blames (room : Nat) (blames : BlamesBodies inner)
    (starts : headKeyword? tokens = some .selection) :
    Blames (fun s => (BodyPhrase.selection s).Whole) (selection room inner) tokens := by
  -- The keyword is there, so the words behind it are what may fail.
  obtain ⟨line, rest, rfl⟩ := headKeyword?_eq_some.mp starts
  exact (condition_blames room blames line rest).skip

/-- The word that a conditional among statements fails at is blamed. -/
theorem conditionalStatement_blames (blames : BlamesBodies inner)
    (starts : startsConditional tokens = true) :
    Blames (One fun s => (BodyPhrase.conditional s).Whole)
      (asWhole (Source.conditional .choice inner.statement inner.conditional)) tokens :=
  -- Statements are parts with these rules, and conditionals of parts were dealt with.
  conditional_blames statementRules blames.statement blames.conditional starts

/-- The word that a statement fails at is blamed. -/
theorem statement_blames (room : Nat) (blames : BlamesBodies inner) (tokens : List Token) :
    Blames (One fun s => (BodyPhrase.statement s).Whole) (asWhole (statement room inner)) tokens := by
  -- The keywords of tests and of `if` are told apart from all other words.
  by_cases conditional : startsConditional tokens = true
  · refine ((conditionalStatement_blames blames conditional).mono ?_).congr fun tokens' alike => ?_
    · rintro _ _ ⟨s, rfl, whole⟩
      exact ⟨s, rfl, whole.tested⟩
    · rw [asWhole, statement_conditional ((startsConditional_congr alike).trans conditional)]
      rfl
  -- Which of the three is read is told by the first word, also where other words are behind it.
  by_cases selection : headKeyword? tokens = some .selection
  · -- A single statement is read like a list of one.
    have single : Blames (One fun s => (BodyPhrase.statement s).Whole) (fun tokens => do
        let (s, rest) ← Source.selection room inner tokens
        return ([s], rest)) tokens :=
      (selection_blames room blames selection).map (fun s => [s]) (fun _ _ => rfl)
        fun whole => ⟨_, rfl, whole.selected⟩
    refine single.congr fun tokens' alike => ?_
    simp only [asWhole, Source.statement, (headKeyword?_congr alike).trans selection,
      ofResult_toResult]
  · have single : Blames (One fun s => (BodyPhrase.statement s).Whole) (fun tokens => do
        let (s, rest) ← simpleStatement room tokens
        return ([s], rest)) tokens :=
      (simpleStatement_blames room tokens).map (fun s => [s]) (fun _ _ => rfl)
        fun whole => ⟨_, rfl, whole⟩
    refine single.congr fun tokens' alike => ?_
    rw [← ofResult_toResult, asWhole, statement_simple]
    · simpa [startsConditional_congr alike] using conditional
    · rwa [headKeyword?_congr alike]

/-- The words that parts of bodies fail at are blamed. -/
theorem bodyParsers_blames (room : Nat) : BlamesBodies (bodyParsers room) := by
  induction room with
  -- With no level left, the fault is one of the depth.
  | zero => exact ⟨fun _ => .tooDeep, fun _ => .tooDeep, fun _ => .tooDeep, fun _ => .tooDeep⟩
  | succ room ih =>
    have statement := statement_blames room ih
    refine ⟨statement, conditionalStatement_blames ih, selection_blames room ih, fun tokens => ?_⟩
    -- A block fails like the statements between its braces.
    have blockBlames : Blames (BetweenBraces fun ss => (BodyPhrase.blockEnd ss).Whole)
        (asWhole (braced (Source.statement room (bodyParsers room)))) tokens := by
      exact braced_blames statement (fun whole => whole.nonempty rfl) Whole.endBlock
        Whole.nextInBlock tokens
    refine blockBlames.mono ?_
    rintro ss _ ⟨line, inside, rfl, isEnding⟩
    exact Whole.block isEnding line

end Shading.Grammar

import Shading.Proofs.Grammar.Blame
import Shading.Proofs.Grammar.ExprSound

/-! Which word a fault of an expression blames. -/

namespace Shading.Grammar

open Source ExprPhrase

/-- These words are a phrase, whatever follows them. -/
def ExprPhrase.Whole (phrase : ExprPhrase) (words : List Token) : Prop :=
  ∃ room, ∀ rest, phrase.Spans room (words ++ rest) rest

namespace ExprPhrase.Whole

variable {phrase : ExprPhrase} {words first second third : List Token} {count count' : Nat}
  {e left right condition yes no object position : Expr} {es : List Expr} {name callee : String}

/-- A phrase has a word. -/
theorem nonempty (whole : phrase.Whole words) : words ≠ [] := by
  -- A phrase without words would leave as many as there were.
  obtain ⟨room, spans⟩ := whole
  rintro rfl
  exact absurd (spans []).shorter (by simp)

/-- A phrase fits within any number of levels from some number on. -/
theorem fits (whole : phrase.Whole words) :
    ∃ least, ∀ {room}, least ≤ room → ∀ rest, phrase.Spans room (words ++ rest) rest := by
  -- The levels of the phrase are enough, and more of them do no harm.
  obtain ⟨room, spans⟩ := whole
  exact ⟨room, fun enough rest => (spans rest).mono enough⟩

/-- Operands joined by operators are an expression. -/
theorem plain (whole : (joined 1 count e).Whole words) : (expression e).Whole words := by
  -- An expression is nested, which takes a level more.
  obtain ⟨room, spans⟩ := whole
  exact ⟨room + 1, fun rest => .plain (spans rest)⟩

/-- A choice between expressions is an expression. -/
theorem ternary (isCondition : (joined 1 count condition).Whole first)
    (isYes : (expression yes).Whole second) (isNo : (expression no).Whole third) (line line' : Nat) :
    (expression (.ternary condition yes no)).Whole
      (first ++ sign .question line :: (second ++ sign .colon line' :: third)) := by
  -- The three parts share the levels of all of them together, and the choice is nested.
  obtain ⟨least, spans⟩ := isCondition.fits
  obtain ⟨least', spans'⟩ := isYes.fits
  obtain ⟨least'', spans''⟩ := isNo.fits
  refine ⟨least + least' + least'' + 1, fun rest => ?_⟩
  simp only [List.append_assoc, List.cons_append]
  exact .ternary (spans (by omega) _) (spans' (by omega) _) (spans'' (by omega) _)

/-- A single operand is joined with nothing. -/
theorem single (whole : (operand e).Whole words) :
    (joined (BinaryOp.levels + 1) 0 e).Whole words := by
  -- The tightest level is that of operands.
  obtain ⟨room, spans⟩ := whole
  exact ⟨room, fun rest => .single (spans rest)⟩

/-- Operands joined on a level are joined on every looser level. -/
theorem looser {level least : Nat} (loose : least ≤ level)
    (whole : (joined level count e).Whole words) : (joined least count e).Whole words := by
  -- No words are added on the way to a looser level.
  obtain ⟨room, spans⟩ := whole
  exact ⟨room, fun rest => (spans rest).looser loose⟩

/-- An operator joins operands of its level with one of a tighter level. -/
theorem join {op : BinaryOp} (isLeft : (joined op.precedence count left).Whole first)
    (isRight : (joined (op.precedence + 1) count' right).Whole second) (line : Nat) :
    (joined op.precedence (count + 1) (.binary op left right)).Whole
      (first ++ sign op.symbol line :: second) := by
  obtain ⟨least, spans⟩ := isLeft.fits
  obtain ⟨least', spans'⟩ := isRight.fits
  -- The left operand is as many levels deeper as there are operators in it.
  refine ⟨least + least' + count + 1, fun rest => ?_⟩
  simp only [List.append_assoc, List.cons_append]
  exact .join (spans (by omega) _) (spans' (by omega) _) (by omega)

/-- An operator before an operand makes another operand. -/
theorem signed (whole : (operand e).Whole words) (op : UnaryOp) (line : Nat) :
    (operand (.unary op e)).Whole (sign op.symbol line :: words) := by
  -- The operand behind an operator is nested, which takes a level more.
  obtain ⟨room, spans⟩ := whole
  exact ⟨room + 1, fun rest => .signed (spans rest)⟩

/-- An expression with its suffixes is an operand. -/
theorem unsigned (whole : (suffixed e).Whole words) : (operand e).Whole words := by
  -- The absence of an operator takes no level.
  obtain ⟨room, spans⟩ := whole
  exact ⟨room, fun rest => .unsigned (spans rest)⟩

/-- A primary expression needs no suffixes. -/
theorem bare (whole : (primary e).Whole words) : (suffixed e).Whole words := by
  -- The absence of suffixes takes no level.
  obtain ⟨room, spans⟩ := whole
  exact ⟨room, fun rest => .bare (spans rest)⟩

/-- The keyword of a type is called. -/
theorem construct (whole : (arguments es).Whole words) (type : DataType) (line line' : Nat) :
    (suffixed (.call type.keyword es)).Whole
      (word type.keyword line :: sign .leftParen line' :: words) := by
  -- The arguments decide how many levels are needed.
  obtain ⟨room, spans⟩ := whole
  exact ⟨room, fun rest => .construct (spans rest)⟩

/-- A name is called. -/
theorem call (isCallee : (suffixed (.variable callee)).Whole first)
    (areArguments : (arguments es).Whole second) (line : Nat) :
    (suffixed (.call callee es)).Whole (first ++ sign .leftParen line :: second) := by
  -- The callee and its arguments share the levels of both together.
  obtain ⟨least, spans⟩ := isCallee.fits
  obtain ⟨least', spans'⟩ := areArguments.fits
  refine ⟨least + least', fun rest => ?_⟩
  simp only [List.append_assoc, List.cons_append]
  exact .call (spans (by omega) _) (spans' (by omega) _)

/-- A field is selected. -/
theorem field (whole : (suffixed object).Whole words) (free : isReserved name = false)
    (line line' : Nat) :
    (suffixed (.field object name)).Whole (words ++ [sign .dot line, word name line']) := by
  -- Neither the point nor the name needs a level.
  obtain ⟨room, spans⟩ := whole
  refine ⟨room, fun rest => ?_⟩
  simp only [List.append_assoc, List.cons_append]
  exact .field (spans _) free

/-- A position is indexed. -/
theorem index (isObject : (suffixed object).Whole first)
    (isPosition : (expression position).Whole second) (line line' : Nat) :
    (suffixed (.index object position)).Whole
      (first ++ sign .leftBracket line :: (second ++ [sign .rightBracket line'])) := by
  -- The object and the position share the levels of both together.
  obtain ⟨least, spans⟩ := isObject.fits
  obtain ⟨least', spans'⟩ := isPosition.fits
  refine ⟨least + least', fun rest => ?_⟩
  simp only [List.append_assoc, List.cons_append]
  exact .index (spans (by omega) _) (spans' (by omega) _)

/-- An expression in parentheses is a primary one. -/
theorem parenthesised (whole : (expression e).Whole words) (line line' : Nat) :
    (primary e).Whole (sign .leftParen line :: (words ++ [sign .rightParen line'])) := by
  -- The levels are those of the expression inside.
  obtain ⟨room, spans⟩ := whole
  refine ⟨room, fun rest => ?_⟩
  simp only [List.append_assoc, List.cons_append]
  exact .parenthesised (spans _)

/-- The arguments of a call are a first one and those after it. -/
theorem firstArgument (isFirst : (expression e).Whole first)
    (areMore : (moreArguments es).Whole second) : (arguments (e :: es)).Whole (first ++ second) := by
  -- The first argument and the others share the levels of both together.
  obtain ⟨least, spans⟩ := isFirst.fits
  obtain ⟨least', spans'⟩ := areMore.fits
  refine ⟨least + least', fun rest => ?_⟩
  rw [List.append_assoc]
  exact .firstArgument (spans (by omega) _) (spans' (by omega) _)

/-- A comma stands before every further argument. -/
theorem nextArgument (isNext : (expression e).Whole first)
    (areMore : (moreArguments es).Whole second) (line : Nat) :
    (moreArguments (e :: es)).Whole (sign .comma line :: (first ++ second)) := by
  -- The comma needs no level, and the arguments share those of both together.
  obtain ⟨least, spans⟩ := isNext.fits
  obtain ⟨least', spans'⟩ := areMore.fits
  refine ⟨least + least', fun rest => ?_⟩
  rw [List.cons_append, List.append_assoc]
  exact .nextArgument (spans (by omega) _) (spans' (by omega) _)

/-- A parenthesis ends a call without arguments. -/
theorem noArguments (line : Nat) : (arguments []).Whole [sign .rightParen line] :=
  -- Nothing is nested in a call without arguments.
  ⟨0, fun _ => .noArguments⟩

/-- A parenthesis ends the arguments. -/
theorem endArguments (line : Nat) : (moreArguments []).Whole [sign .rightParen line] :=
  -- Nothing is nested behind the last argument.
  ⟨0, fun _ => .endArguments⟩

/-- A truth value is a primary expression. -/
theorem bool (value : Bool) (line : Nat) : (primary (.bool value)).Whole [⟨.boolean value, line⟩] :=
  -- A single word has nothing nested in it.
  ⟨0, fun _ => .bool⟩

/-- A truth value may stand wherever an expression has to. -/
theorem placeholder : (expression (.bool true)).Whole [⟨.boolean true, 1⟩] :=
  -- From the primary expression outwards through all rules that add nothing.
  plain (looser (by decide) (single (unsigned (bare (bool true 1)))))

end ExprPhrase.Whole

variable {nested deeper : Parser Expr}

/-- The arguments after the first one, without a limit. -/
theorem moreArguments_eq (shrinks : Shrinks nested) (tokens : List Token) :
    Source.moreArguments nested tokens.length tokens =
      if startsWith .comma tokens then do
        let (first, rest) ← nested tokens.tail
        let (more, rest) ← Source.moreArguments nested rest.length rest
        return (first :: more, rest)
      else do
        let rest ← expect .rightParen tokens
        return ([], rest) := by
  -- The limit is the number of words, of which each argument takes at least one.
  refine @loop_eq _ Unit (fun limit _ => Source.moreArguments nested limit)
    (fun more _ tokens => if startsWith .comma tokens then do
        let (first, rest) ← nested tokens.tail
        let (more, rest) ← more () rest
        return (first :: more, rest)
      else do
        let rest ← expect .rightParen tokens
        return ([], rest)) (fun _ _ _ => rfl) (fun _ => rfl) ?_ () tokens
  intro more more' _ tokens same
  dsimp only
  split
  · refine bind_congr fun ⟨first, rest⟩ readFirst => ?_
    -- What is left behind the argument and its comma is within the smaller limit.
    have fewer := shrinks readFirst
    rw [List.length_tail] at fewer
    dsimp only
    rw [same () rest (by omega)]
  · rfl

/-- The word that the arguments after the first one fail at is blamed. -/
theorem moreArguments_blames
    (blames : ∀ tokens, Blames (fun e => (expression e).Whole) nested tokens)
    (tokens : List Token) : Blames (fun es => (ExprPhrase.moreArguments es).Whole)
      (fun tokens => Source.moreArguments nested tokens.length tokens) tokens := by
  have shrinks := shrinks_of_blames blames Whole.nonempty
  -- By the number of words: a comma and an argument stand before the further arguments.
  induction short : tokens.length using Nat.strongRecOn generalizing tokens with
  | _ length ih =>
    subst short
    refine .congr (.ite (fun _ => startsWith_congr) (fun comma => ?_) fun _ => ?_)
      fun tokens' _ => moreArguments_eq shrinks tokens'
    · obtain ⟨line, rest, rfl⟩ := startsWith_iff.mp comma
      refine .skip ((blames rest).bind ?_ ?_)
      · exact fun value words isFirst =>
          ⟨_, _, isFirst.nextArgument (.endArguments 1) line⟩
      · intro value taken rest' read same isFirst
        have fewer := shrinks read
        have behind := ih _ (by simpa using Nat.lt_succ_of_lt fewer) rest' rfl
        exact behind.map (value :: ·) (fun _ _ => rfl)
          fun areMore => isFirst.nextArgument areMore line
    · -- Without a comma only the parenthesis can follow.
      refine .expect _ ⟨_, _, .endArguments 1⟩ ?_
      rintro line rest rfl
      exact .pure (.endArguments line)

/-- The word that the arguments of a call fail at is blamed. -/
theorem arguments_blames (blames : ∀ tokens, Blames (fun e => (expression e).Whole) nested tokens)
    (tokens : List Token) :
    Blames (fun es => (ExprPhrase.arguments es).Whole) (Source.arguments nested) tokens := by
  refine .ite (fun _ => startsWith_congr) (fun closed => ?_) fun _ => ?_
  · obtain ⟨line, rest, rfl⟩ := startsWith_iff.mp closed
    exact (Blames.skip (.pure (.noArguments line))).congr fun _ _ => rfl
  · -- A first argument is completed by the parenthesis that ends the call.
    refine (blames tokens).bind (fun value words isFirst => ?_) fun value taken rest _ _ isFirst => ?_
    · exact ⟨_, _, isFirst.firstArgument (.endArguments 1)⟩
    · exact (moreArguments_blames blames rest).map (value :: ·) (fun _ _ => rfl)
        isFirst.firstArgument

/-- Words that suffixes may follow: an expression that may have some, or the keyword of a type. -/
inductive ObjectWords : Expr → List Token → Prop
  | suffixed {e : Expr} {words : List Token} :
    (suffixed e).Whole words → ObjectWords e words
  | called (type : DataType) (line : Nat) :
    ObjectWords (.variable type.keyword) [word type.keyword line]

/-- What a primary expression is depends on the first word, and for a type on the second one. -/
theorem primary_eq (tokens : List Token) :
    Source.primary nested tokens =
      match (headToken tokens).lexeme with
      | .integer _ value => .ok (.int value, tokens.tail)
      | .float _ value => .ok (.float value, tokens.tail)
      | .boolean value => .ok (.bool value, tokens.tail)
      | .identifier name =>
        if isReserved name || ((DataType.ofKeyword? name).isSome &&
            !startsWith .leftParen tokens.tail) then unexpected .expression tokens
        else .ok (.variable name, tokens.tail)
      | .symbol .leftParen => do
        let (inner, rest) ← nested tokens.tail
        let rest ← expect .rightParen rest
        return (inner, rest)
      | _ => unexpected .expression tokens := by
  -- The kind of the first word decides, and among symbols it is the parenthesis or none.
  rcases tokens with _ | ⟨⟨lexeme, line⟩, rest⟩
  · rfl
  · cases lexeme with
    | symbol symbol => cases symbol <;> rfl
    | _ => rfl

/-- The keyword of a type is taken where it is called, and blamed where it is not. -/
theorem primary_type_blames {name : String} {type : DataType} {line : Nat} {rest : List Token}
    (found : DataType.ofKeyword? name = some type) :
    Blames ObjectWords (Source.primary nested) (word name line :: rest) := by
  obtain rfl := DataType.ofKeyword?_eq_some.mp found
  cases called : startsWith .leftParen rest with
  | true =>
    -- Only the parenthesis behind the keyword is looked at.
    have read : ∀ {rest'}, headToken rest' = headToken rest →
        Source.primary nested (word type.keyword line :: rest') =
          .ok (.variable type.keyword, rest') := by
      intro rest' alike
      simp [Source.primary, startsWith_congr alike, called]
    constructor
    · intro value behind readHere
      obtain ⟨rfl, rfl⟩ := Prod.mk.inj (Except.ok.inj ((read rfl).symm.trans readHere))
      exact ⟨[word type.keyword line], rfl, .called type line, read⟩
    · intro fault failed
      cases (read rfl).symm.trans failed
  | false =>
    -- A type that is not called is blamed only because of the word behind it.
    have early : GrammarError.Cause.IsEarly (.unexpected .expression (.identifier type.keyword)) :=
      ⟨_, rfl, by simp⟩
    have reports : Reports ⟨line, .unexpected .expression (.identifier type.keyword)⟩
        (word type.keyword line :: rest) := ⟨rfl, .unexpected⟩
    refine .refuse reports (fun fits => ?_) fun {tokens'} alike => ?_
    · -- A call of the type could still follow.
      cases fits with
      | nothing => exact ⟨_, _, .suffixed (Whole.bool true 1).bare⟩
      | uncalled => exact ⟨_, [], .called type line⟩
    have uncalled : startsWith .leftParen tokens'.tail = false :=
      (startsWith_congr (alike.second early)).trans called
    rw [primary_eq, alike.first]
    simp [uncalled, Source.unexpected, alike.first]

/-- An expression in parentheses is taken, or the word that it fails at is blamed. -/
theorem primary_paren_blames
    (blames : ∀ tokens, Blames (fun e => (expression e).Whole) nested tokens) (line : Nat)
    (rest : List Token) :
    Blames ObjectWords (Source.primary nested) (sign .leftParen line :: rest) := by
  -- The parenthesis is passed, and the inner expression is followed by the other one.
  have inside : Blames ObjectWords (fun tokens => do
      let (inner, rest) ← nested tokens.tail
      let rest ← expect .rightParen rest
      return (inner, rest)) (sign .leftParen line :: rest) := by
    refine .skip ((blames rest).bind (fun inner words isInner => ?_)
      fun inner taken rest' _ _ isInner => ?_)
    · -- A word that is missing inside can be completed by it and the parenthesis that closes.
      exact ⟨_, _, .suffixed (isInner.parenthesised line 1).bare⟩
    · refine .expect _ ⟨inner, [], .suffixed (isInner.parenthesised line 1).bare⟩ ?_
      rintro line' rest'' rfl
      exact .pure (.suffixed (isInner.parenthesised line line').bare)
  refine inside.congr fun tokens' alike => ?_
  rw [primary_eq, alike]
  rfl

/-- The word that a primary expression fails at is blamed. -/
theorem primary_blames (blames : ∀ tokens, Blames (fun e => (expression e).Whole) nested tokens)
    (tokens : List Token) : Blames ObjectWords (Source.primary nested) tokens := by
  -- Where no primary expression starts, one that is a single word could have stood instead.
  have refuse (late : ∀ type, (headToken tokens).lexeme ≠ .identifier (DataType.keyword type)) :
      Blames ObjectWords (unexpected .expression) tokens := by
    refine .unexpected _ ⟨_, _, .suffixed (Whole.bool true 1).bare⟩ ?_
    rintro ⟨name, same, isType⟩
    obtain ⟨type, found⟩ := Option.isSome_iff_exists.mp isType
    obtain rfl := DataType.ofKeyword?_eq_some.mp found
    exact late type (by injection same)
  cases lexeme : (headToken tokens).lexeme with
  | endOfFile =>
    refine (refuse (by simp [lexeme])).congr fun tokens' alike => ?_
    rw [primary_eq, alike, lexeme]
  -- A literal is a primary expression by itself.
  | integer text value =>
    refine .take lexeme (by simp) (fun _ => .suffixed ⟨0, fun _ => .bare .int⟩) fun tokens' same => ?_
    rw [primary_eq, same]
  | float text value =>
    refine .take lexeme (by simp) (fun _ => .suffixed ⟨0, fun _ => .bare .float⟩)
      fun tokens' same => ?_
    rw [primary_eq, same]
  | boolean value =>
    refine .take lexeme (by simp) (fun line => .suffixed (Whole.bool value line).bare)
      fun tokens' same => ?_
    rw [primary_eq, same]
  | identifier name =>
    obtain ⟨line, rest, rfl⟩ := exists_word lexeme
    cases reserved : isReserved name with
    | true =>
      -- Reserved words are refused before types are looked for, and no type is among them.
      have noType : ∀ type, name ≠ DataType.keyword type := by
        rintro type rfl
        simp at reserved
      refine (refuse (by simpa using noType)).congr fun tokens' alike => ?_
      rw [primary_eq, alike, lexeme]
      simp [reserved]
    | false =>
      cases found : DataType.ofKeyword? name with
      | none =>
        refine .take lexeme (by simp)
          (fun _ => .suffixed ⟨0, fun _ => .bare (.named reserved found)⟩) fun tokens' same => ?_
        rw [primary_eq, same]
        simp [reserved, found]
      | some type => exact primary_type_blames found
  | symbol symbol =>
    -- No other symbol starts a primary expression.
    by_cases opens : symbol = .leftParen
    · subst opens
      obtain ⟨line, rest, rfl⟩ := exists_first lexeme (by simp)
      exact primary_paren_blames blames line rest
    · refine (refuse (by simp [lexeme])).congr fun tokens' alike => ?_
      rw [primary_eq, alike, lexeme]
      cases symbol <;> first | rfl | exact absurd rfl opens

/-- What suffixes may follow, with the words in front of them and those behind it. -/
inductive Object (object : Expr) (before tokens : List Token) : Prop
  | complete : (suffixed object).Whole before → Object object before tokens
  -- The keyword of a type is followed by the parenthesis of a call.
  | called {type : DataType} {line : Nat} :
    object = .variable type.keyword → before = [word type.keyword line] →
    startsWith .leftParen tokens = true → Object object before tokens

/-- A primary expression that is read may be followed by suffixes. -/
theorem object_of_primary {object : Expr} {before rest : List Token}
    (words : ObjectWords object before)
    (read : Source.primary nested (before ++ rest) = .ok (object, rest)) :
    Object object before rest := by
  -- A type was read only because a parenthesis follows it.
  cases words with
  | suffixed whole => exact .complete whole
  | called type line =>
    refine .called rfl rfl ?_
    rw [← Bool.not_eq_false]
    intro uncalled
    simp [Source.primary, uncalled, unexpected] at read

/-- The suffixes of an expression, as long as there are any. -/
def suffixesStep (nested : Parser Expr) (more : Expr → Parser Expr) (object : Expr) :
    Parser Expr := fun tokens =>
  match (headToken tokens).lexeme with
  | .symbol .leftParen =>
    match object with
    | .variable callee => do
      let (given, rest) ← Source.arguments nested tokens.tail
      more (.call callee given) rest
    | _ => unexpected .operator tokens
  | .symbol .dot => do
    let (field, rest) ← name .fieldName tokens.tail
    more (.field object field) rest
  | .symbol .leftBracket => do
    let (position, rest) ← nested tokens.tail
    let rest ← expect .rightBracket rest
    more (.index object position) rest
  | _ => .ok (object, tokens)

/-- The suffixes of an expression, without a limit. -/
theorem suffixes_eq (blames : ∀ tokens, Blames (fun e => (expression e).Whole) nested tokens)
    (object : Expr) (tokens : List Token) :
    suffixes nested tokens.length object tokens =
      suffixesStep nested (fun object rest => suffixes nested rest.length object rest) object
        tokens := by
  refine loop_eq (fun _ _ _ => rfl) (fun _ => rfl) ?_ object tokens
  have argumentsShrink := shrinks_of_blames (arguments_blames blames) Whole.nonempty
  have shrinks := shrinks_of_blames blames Whole.nonempty
  intro more more' object tokens same
  -- The suffixes behind the first one have fewer words: its first word is passed at least.
  unfold suffixesStep
  split
  · -- Arguments stand between parentheses, of which the first one is passed already.
    split
    · refine bind_congr fun read readArguments => same _ _ ?_
      have fewer := argumentsShrink readArguments
      rw [List.length_tail] at fewer
      omega
    · rfl
  · -- A name takes one word, and a position takes the brackets with it.
    refine bind_congr fun read readName => same _ _ ?_
    obtain ⟨line, after, -⟩ := name_eq_ok.mp readName
    have fewer := congrArg List.length after
    rw [List.length_tail, List.length_cons] at fewer
    omega
  · refine bind_congr fun read readPosition => bind_congr fun rest closed => same _ _ ?_
    have fewer := shrinks readPosition
    obtain ⟨line, after⟩ := expect_eq_ok.mp closed
    have fewer' := congrArg List.length after
    rw [List.length_tail] at fewer
    rw [List.length_cons] at fewer'
    omega
  · rfl

/-- Where no parenthesis follows, what suffixes may follow is an expression. -/
theorem Object.whole {object : Expr} {before tokens : List Token}
    (isObject : Object object before tokens) (uncalled : startsWith .leftParen tokens = false) :
    (suffixed object).Whole before := by
  -- A type without its parentheses is the only object that is not whole.
  cases isObject with
  | complete whole => exact whole
  | called _ _ called => cases uncalled.symm.trans called

/-- What suffixes may follow is called with arguments. -/
theorem Object.call {callee : String} {es : List Expr} {before tokens words : List Token}
    (isObject : Object (.variable callee) before tokens) (areArguments : (arguments es).Whole words)
    (line : Nat) :
    (suffixed (.call callee es)).Whole (before ++ sign .leftParen line :: words) := by
  -- A type is called by its own rule, and every other callee by the general one.
  cases isObject with
  | complete whole => exact whole.call areArguments line
  | called same before =>
    obtain rfl := Expr.variable.inj same
    subst before
    exact areArguments.construct _ _ _

section Suffixes

variable {object : Expr} {before tokens rest : List Token} {more : Expr → Parser Expr} {line : Nat}

/-- Behind a suffix, the word that the suffixes after it fail at is blamed. -/
def BlamesMore (more : Expr → Parser Expr) (before tokens : List Token) : Prop :=
  ∀ {object words rest}, rest.length < tokens.length → (suffixed object).Whole (before ++ words) →
    Blames (fun e after => (suffixed e).Whole (before ++ (words ++ after))) (more object) rest

/-- A call is read where a name stands before the parenthesis, which is blamed otherwise. -/
theorem suffixesStep_call_blames
    (blames : ∀ tokens, Blames (fun e => (expression e).Whole) nested tokens)
    (onward : BlamesMore more before (sign .leftParen line :: rest))
    (isObject : Object object before (sign .leftParen line :: rest)) :
    Blames (fun e words => (suffixed e).Whole (before ++ words)) (suffixesStep nested more object)
      (sign .leftParen line :: rest) := by
  -- Whether a call is read depends on what stands in front of the parenthesis.
  by_cases named : ∃ callee, object = .variable callee
  · obtain ⟨callee, rfl⟩ := named
    have called : Blames (fun e words => (suffixed e).Whole (before ++ words)) (fun tokens => do
        let (given, rest) ← Source.arguments nested tokens.tail
        more (.call callee given) rest) (sign .leftParen line :: rest) := by
      refine .skip ((arguments_blames blames rest).bind (fun es words areArguments => ?_)
        fun es taken after _ same areArguments => ?_)
      · exact ⟨_, [], by simpa using isObject.call areArguments line⟩
      · -- The parenthesis was passed, so what is behind the arguments is shorter.
        have fewer : after.length < (sign .leftParen line :: rest).length := by
          rw [same, List.length_cons, List.length_append]
          omega
        exact onward fewer (isObject.call areArguments line)
    refine called.congr fun tokens' alike => ?_
    unfold suffixesStep
    rw [alike]
    rfl
  · -- Nothing but a name is called.
    have whole : (suffixed object).Whole before := by
      cases isObject with
      | complete whole => exact whole
      | called same => exact absurd ⟨_, same⟩ named
    refine (Blames.unexpected .operator ⟨object, [], by simpa using whole⟩).congr
      fun tokens' alike => ?_
    unfold suffixesStep
    rw [alike]
    cases object <;> first | rfl | exact absurd ⟨_, rfl⟩ named

/-- A field is read behind a point. -/
theorem suffixesStep_field_blames (onward : BlamesMore more before (sign .dot line :: rest))
    (whole : (suffixed object).Whole before) :
    Blames (fun e words => (suffixed e).Whole (before ++ words)) (suffixesStep nested more object)
      (sign .dot line :: rest) := by
  -- The point and the name are passed, and the field is the object of what follows.
  have selected : Blames (fun e words => (suffixed e).Whole (before ++ words)) (fun tokens => do
      let (field, rest) ← name .fieldName tokens.tail
      more (.field object field) rest) (sign .dot line :: rest) := by
    refine .skip ((Blames.name .fieldName).bind ?_ ?_)
    · rintro name _ ⟨line', rfl, free⟩
      exact ⟨_, [], whole.field free line line'⟩
    · -- The suffixes behind the field have the words behind its name.
      rintro name _ after - same ⟨line', rfl, free⟩
      have fewer : after.length < (sign .dot line :: rest).length := by
        rw [same, List.length_cons, List.length_append]
        omega
      exact onward fewer (whole.field free line line')
  refine selected.congr fun tokens' alike => ?_
  unfold suffixesStep
  rw [alike]
  rfl

/-- A position is read behind a bracket, up to the bracket that closes it. -/
theorem suffixesStep_index_blames
    (blames : ∀ tokens, Blames (fun e => (expression e).Whole) nested tokens)
    (onward : BlamesMore more before (sign .leftBracket line :: rest))
    (whole : (suffixed object).Whole before) :
    Blames (fun e words => (suffixed e).Whole (before ++ words)) (suffixesStep nested more object)
      (sign .leftBracket line :: rest) := by
  -- The position stands between two brackets, and the index is the object of what follows.
  have indexed : Blames (fun e words => (suffixed e).Whole (before ++ words)) (fun tokens => do
      let (position, rest) ← nested tokens.tail
      let rest ← expect .rightBracket rest
      more (.index object position) rest) (sign .leftBracket line :: rest) := by
    refine .skip ((blames rest).bind (fun position words isPosition => ?_)
      fun position taken after _ same isPosition => ?_)
    · exact ⟨_, _, whole.index isPosition line 1⟩
    · refine .expect _ ⟨_, _, whole.index isPosition line 1⟩ fun line' behind closed => ?_
      -- Both brackets were passed before the suffixes go on.
      have fewer : behind.length < (sign .leftBracket line :: rest).length := by
        simp [same, closed]
        omega
      have further := onward fewer (whole.index isPosition line line')
      simpa using further
  refine indexed.congr fun tokens' alike => ?_
  unfold suffixesStep
  rw [alike]
  rfl

/-- The word that one step of reading suffixes fails at is blamed. -/
theorem suffixesStep_blames
    (blames : ∀ tokens, Blames (fun e => (expression e).Whole) nested tokens)
    (onward : BlamesMore more before tokens) (isObject : Object object before tokens) :
    Blames (fun e words => (suffixed e).Whole (before ++ words)) (suffixesStep nested more object)
      tokens := by
  by_cases paren : startsWith .leftParen tokens = true
  · obtain ⟨line, rest, rfl⟩ := startsWith_iff.mp paren
    exact suffixesStep_call_blames blames onward isObject
  -- No other suffix makes a call of a type, so what stands before it is an expression.
  have whole := isObject.whole (by simpa using paren)
  by_cases dot : startsWith .dot tokens = true
  · obtain ⟨line, rest, rfl⟩ := startsWith_iff.mp dot
    exact suffixesStep_field_blames onward whole
  by_cases bracket : startsWith .leftBracket tokens = true
  · obtain ⟨line, rest, rfl⟩ := startsWith_iff.mp bracket
    exact suffixesStep_index_blames blames onward whole
  · -- Anything else ends the expression.
    have ended : Blames (fun e words => (suffixed e).Whole (before ++ words))
        (fun tokens => .ok (object, tokens)) tokens := .pure (by simpa using whole)
    refine ended.congr fun tokens' alike => ?_
    unfold suffixesStep
    rw [alike]
    simp only [startsWith, beq_iff_eq] at paren dot bracket
    split <;> first | rfl | contradiction

/-- The word that the suffixes of an expression fail at is blamed. -/
theorem suffixes_blames (blames : ∀ tokens, Blames (fun e => (expression e).Whole) nested tokens)
    (isObject : Object object before tokens) :
    Blames (fun e words => (suffixed e).Whole (before ++ words))
      (fun tokens => suffixes nested tokens.length object tokens) tokens := by
  induction short : tokens.length using Nat.strongRecOn generalizing object before tokens with
  | _ length ih =>
    subst short
    -- Behind one suffix, the rest are read from fewer words.
    have onward : BlamesMore (fun object rest => suffixes nested rest.length object rest) before
        tokens := by
      intro object words rest fewer whole
      simpa using ih rest.length fewer (.complete whole) rfl
    exact (suffixesStep_blames blames onward isObject).congr
      fun tokens' _ => suffixes_eq blames object tokens'

end Suffixes

/-- The word that an operand fails at is blamed. -/
theorem unary_blames (deeperBlames : ∀ tokens, Blames (fun e => (operand e).Whole) deeper tokens)
    (blames : ∀ tokens, Blames (fun e => (expression e).Whole) nested tokens)
    (tokens : List Token) : Blames (fun e => (operand e).Whole) (unary deeper nested) tokens := by
  -- Whether an operator is in front is told by the first word alone.
  have head : ∀ {tokens'}, headToken tokens' = headToken tokens →
      headUnary? tokens' = headUnary? tokens := by
    intro tokens' alike
    rw [headUnary?, alike, headUnary?]
  cases met : headUnary? tokens with
  | some op =>
    obtain ⟨line, rest, rfl⟩ := headUnary?_eq_some.mp met
    -- The operand behind the operator is read one level deeper.
    have inside : Blames (fun e => (operand e).Whole) (fun tokens => do
        let (e, rest) ← deeper tokens.tail
        return (.unary op e, rest)) (sign op.symbol line :: rest) :=
      .skip ((deeperBlames rest).map (.unary op) (fun _ _ => rfl) fun whole => whole.signed op line)
    refine inside.congr fun tokens' alike => ?_
    rw [unary, (head alike).trans met]
  | none =>
    have bare : Blames (fun e => (operand e).Whole) (fun tokens => do
        let (object, rest) ← primary nested tokens
        suffixes nested rest.length object rest) tokens := by
      refine (primary_blames blames tokens).bind (fun object words isObject => ?_)
        fun object taken rest read same isObject => ?_
      · -- The keyword of a type is completed by the parentheses of a call.
        cases isObject with
        | suffixed whole => exact ⟨object, [], by simpa using whole.unsigned⟩
        | called type line =>
          exact ⟨_, _, ((Whole.noArguments 1).construct type line 1).unsigned⟩
      · have behind := suffixes_blames blames (object_of_primary isObject (same ▸ read))
        exact behind.mono fun whole => whole.unsigned
    refine bare.congr fun tokens' alike => ?_
    rw [unary, (head alike).trans met]

/-- The operator that words start with is told by their first one. -/
theorem headBinary?_congr {tokens tokens' : List Token}
    (same : headToken tokens' = headToken tokens) : headBinary? tokens' = headBinary? tokens := by
  -- The lookup is in the first word only.
  rw [headBinary?, same, headBinary?]

/-- A chain ends in front of anything but an operator that binds tightly enough. -/
theorem chain_ended {tighter : Nat → Parser Expr} {least further : Nat} {left : Expr}
    {tokens : List Token} (ends : LooserHead least tokens) :
    chain tighter least further left tokens = .ok (left, tokens) := by
  -- No operator is met, or it is too loose to go on with.
  unfold chain
  split
  · rfl
  · rename_i op met
    exact if_pos (ends op met)

/-- A chain that ends is what it was. -/
theorem chain_ended_blames {tighter : Nat → Parser Expr} {least further count : Nat} {left : Expr}
    {before tokens : List Token} (isLeft : (joined least count left).Whole before)
    (ends : LooserHead least tokens) :
    Blames (fun e words => ∃ count, (joined least count e).Whole (before ++ words))
      (chain tighter least further left) tokens := by
  -- Nothing is read, so that no word can be blamed.
  have ended : Blames (fun e words => ∃ count, (joined least count e).Whole (before ++ words))
      (fun tokens => .ok (left, tokens)) tokens := .pure ⟨count, by simpa using isLeft⟩
  refine ended.congr fun tokens' alike => chain_ended ?_
  rwa [LooserHead, headBinary?_congr alike]

/-- A chain that does not end meets an operator that binds tightly enough. -/
theorem exists_tight {least : Nat} {tokens : List Token} (goesOn : ¬ LooserHead least tokens) :
    ∃ op, headBinary? tokens = some op ∧ ¬ op.precedence < least := by
  -- The negation of the condition names the operator.
  simpa [LooserHead] using goesOn

/-- The word that a chain of operators fails at is blamed. -/
theorem chain_blames {tighter : Nat → Parser Expr} {least room : Nat}
    (tighterSound : ∀ level, least ≤ level → level ≤ BinaryOp.levels →
      Sound (tighter (level + 1)) (JoinedRead room (level + 1)))
    (tighterBlames : ∀ level, least ≤ level → level ≤ BinaryOp.levels → ∀ tokens,
      Blames (fun e words => ∃ count, (joined (level + 1) count e).Whole words)
        (tighter (level + 1)) tokens)
    {level count further : Nat} {left : Expr} {before tokens : List Token}
    (isLeft : (joined level count left).Whole before) (loose : least ≤ level)
    (head : LooserHead (level + 1) tokens) :
    Blames (fun e words => ∃ count, (joined least count e).Whole (before ++ words))
      (chain tighter least further left) tokens := by
  -- By the room for further operators, with the operands joined so far on the left.
  induction further generalizing level count left before tokens with
  | zero =>
    by_cases ends : LooserHead least tokens
    · exact chain_ended_blames (isLeft.looser loose) ends
    · -- There is no room for one more operator.
      obtain ⟨op, met, tight⟩ := exists_tight ends
      refine Blames.tooDeep.congr fun tokens' alike => ?_
      unfold chain
      rw [(headBinary?_congr alike).trans met]
      exact if_neg tight
  | succ further ih =>
    by_cases ends : LooserHead least tokens
    · exact chain_ended_blames (isLeft.looser loose) ends
    obtain ⟨op, met, tight⟩ := exists_tight ends
    have within := head op met
    have isLeft := isLeft.looser (Nat.le_of_lt_succ within)
    obtain ⟨line, rest, rfl⟩ := headBinary?_eq_some.mp met
    have some := op.precedence_bounds
    have goesOn : Blames (fun e words => ∃ count, (joined least count e).Whole (before ++ words))
        (fun tokens => do
          let (right, rest) ← tighter (op.precedence + 1) tokens.tail
          chain tighter least further (.binary op left right) rest) (sign op.symbol line :: rest) := by
      refine .skip ((tighterBlames op.precedence (by omega) some.2 rest).bind ?_ ?_)
      · rintro right words ⟨count', isRight⟩
        exact ⟨_, [], _, by simpa using (isLeft.join isRight line).looser (by omega)⟩
      · rintro right taken behind read - ⟨count', isRight⟩
        -- The joined operands are the left one of whatever operator follows.
        have headBehind := (tighterSound op.precedence (by omega) some.2 read).2
        have more := ih (isLeft.join isRight line) (by omega) headBehind
        simpa using more
    refine goesOn.congr fun tokens' alike => ?_
    conv => lhs; unfold chain
    rw [(headBinary?_congr alike).trans met]
    exact if_neg tight

section Levels

variable {room : Nat} {operandReader : Parser Expr}

/-- The word that joined operands fail at is blamed. -/
theorem climb_blames (operandSound : Sound operandReader fun e => (operand e).Spans room)
    (operandBlames : ∀ tokens, Blames (fun e => (operand e).Whole) operandReader tokens)
    (levels : Nat) :
    ∀ {least}, least ≤ BinaryOp.levels + 1 → BinaryOp.levels + 1 ≤ least + levels → ∀ tokens,
      Blames (fun e words => ∃ count, (joined least count e).Whole words)
        (climb operandReader room levels least) tokens := by
  induction levels with
  | zero =>
    -- Above all levels there is nothing but a single operand.
    intro least small large tokens
    obtain rfl : least = BinaryOp.levels + 1 := by omega
    exact (operandBlames tokens).mono fun whole => ⟨0, whole.single⟩
  | succ levels ih =>
    intro least small large tokens
    refine (operandBlames tokens).bind (fun left words isLeft => ?_) fun left taken rest _ _ isLeft => ?_
    · exact ⟨left, [], 0, by simpa using isLeft.single.looser small⟩
    · -- The operands to the right of an operator are those of the levels above it.
      refine chain_blames (fun level loose tight => climb_sound operandSound levels ?_ ?_)
        (fun level loose tight => ih ?_ ?_) isLeft.single small fun op _ => ?_
      all_goals first | omega | exact Nat.lt_succ_of_lt (Nat.lt_succ_of_le op.precedence_bounds.2)

/-- The word that a choice between expressions fails at is blamed. -/
theorem ternary_blames (operandSound : Sound operandReader fun e => (operand e).Spans room)
    (operandBlames : ∀ tokens, Blames (fun e => (operand e).Whole) operandReader tokens)
    (blames : ∀ tokens, Blames (fun e => (expression e).Whole) nested tokens)
    (tokens : List Token) :
    Blames (fun e => (expression e).Whole) (Source.ternary room operandReader nested) tokens := by
  -- Without a question mark the condition is the whole expression.
  refine (climb_blames operandSound operandBlames BinaryOp.levels (by decide) (by decide)
    tokens).bind ?_ ?_
  · rintro condition words ⟨count, isCondition⟩
    exact ⟨condition, [], by simpa using isCondition.plain⟩
  rintro condition taken rest - - ⟨count, isCondition⟩
  refine .ite (fun _ => startsWith_congr) (fun question => ?_) fun _ => ?_
  · -- Any expressions complete a choice behind its condition.
    obtain ⟨line, rest, rfl⟩ := startsWith_iff.mp question
    refine .skip ((blames rest).bind (fun yes words isYes => ?_) fun yes words rest _ _ isYes => ?_)
    · exact ⟨_, _, isCondition.ternary isYes .placeholder line 1⟩
    refine .expect _ ⟨_, _, isCondition.ternary isYes .placeholder line 1⟩ ?_
    rintro line' rest rfl
    exact (blames rest).map (.ternary condition yes ·) (fun _ _ => rfl)
      fun isNo => isCondition.ternary isYes isNo line line'
  · exact .pure (by simpa using isCondition.plain)

/-- The word that an expression or an operand fails at is blamed. -/
theorem exprParsers_blames (room : Nat) (tokens : List Token) :
    Blames (fun e => (expression e).Whole) (exprParsers room).expression tokens ∧
      Blames (fun e => (operand e).Whole) (exprParsers room).operand tokens := by
  induction room generalizing tokens with
  -- With no level left, the fault is one of the depth.
  | zero => exact ⟨.tooDeep, .tooDeep⟩
  | succ room ih =>
    have sound := exprParsers_sound room
    have operandBlames := unary_blames (fun tokens => (ih tokens).2) fun tokens => (ih tokens).1
    exact ⟨ternary_blames (unary_sound sound.1 sound.2) operandBlames (fun tokens => (ih tokens).1)
      tokens, operandBlames tokens⟩

/-- The word that an expression fails at is blamed. -/
theorem expression_blames (room : Nat) (tokens : List Token) :
    Blames (fun e => (expression e).Whole) (Source.expression room) tokens :=
  -- Expressions and operands were dealt with together.
  (exprParsers_blames room tokens).1

end Levels

end Shading.Grammar

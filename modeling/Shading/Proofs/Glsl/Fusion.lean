import Shading.Proofs.Glsl.Precedence
import Shading.Proofs.Glsl.RoundTrip
import Shading.Proofs.Glsl.Separation

/-! Written expressions keep their tokens, but for two pairs of them that GLSL reads as one. -/

namespace Shading

namespace Glsl

/-- An expression is written with a minus sign in front. -/
def startsWithMinus : Expr → Bool
  | .unary op _ => op == .negate
  | .binary op left _ => decide (rank left ≤ binaryRank op) && startsWithMinus left
  | .ternary condition _ _ => decide (rank condition < ternaryRank) && startsWithMinus condition
  | _ => false

end Glsl

open Glsl in
/-- Nothing that is written with a minus sign in front is subtracted without parentheses. -/
def Expr.NoDoubleMinus (e : Expr) : Prop :=
  ∀ left right, rank right < binaryRank .subtract → startsWithMinus right = true →
    ¬(Expr.binary .subtract left right).Within e

/-- Parts of an expression without two minus signs in a row have none either. -/
theorem Expr.NoDoubleMinus.part {part whole : Expr} (noMinus : whole.NoDoubleMinus)
    (inside : ∀ {e : Expr}, e.Within part → e.Within whole) : part.NoDoubleMinus :=
  -- A pair of signs in the part would be one in the whole.
  fun left right bare starts within => noMinus left right bare starts (inside within)

namespace Glsl

open Cursor

/-- What suffixes can follow is not written with a minus sign in front. -/
theorem startsWithMinus_of_suffix {e : Expr} (tight : rank e ≤ suffixRank) :
    startsWithMinus e = false := by
  -- Operators and choices bind more loosely; everything else starts with a name or a number.
  cases e with
  | unary | ternary => simp [rank, suffixRank, unaryRank, ternaryRank] at tight
  | binary op =>
    have looser := binaryRank_bounds op
    simp only [rank, suffixRank, unaryRank] at *
    omega
  | _ => rfl

/-- What a suffix stands behind is in parentheses, or not written with a minus sign in front. -/
theorem wrapSuffix_minus (e : Expr) :
    (!decide (suffixRank < rank e) && startsWithMinus e) = false := by
  -- Only looser expressions start with a minus sign, and these get parentheses.
  by_cases tight : rank e ≤ suffixRank
  · rw [startsWithMinus_of_suffix tight, Bool.and_false]
  · simp [Nat.lt_of_not_le tight]

/-- Of the operands of an operator, only negations are written with a minus sign in front. -/
theorem startsWithMinus_of_operand {e : Expr} (tight : rank e ≤ unaryRank) :
    startsWithMinus e = isNegation e := by
  -- Two operands with an operator between them would be in parentheses.
  cases e with
  | unary op => cases op <;> rfl
  | ternary => simp [rank, unaryRank, ternaryRank] at tight
  | binary op =>
    have looser := binaryRank_bounds op
    simp only [rank, unaryRank] at *
    omega
  | _ => rfl

/-- What is negated is in parentheses, or not written with a minus sign in front. -/
theorem wrapNegated_minus (e : Expr) :
    (!(decide (unaryRank < rank e) || isNegation e) && startsWithMinus e) = false := by
  by_cases tight : rank e ≤ unaryRank
  · -- A bare operand starts with a minus sign only if it is a negation, which is not left bare.
    rw [startsWithMinus_of_operand tight]
    cases isNegation e <;> simp
  · simp [Nat.lt_of_not_le tight]

section Opening

variable {marks more : List Mark} {minus : Bool}

/-- The first character of marks is one that an operand starts with, and it is a minus sign or not. -/
def OpensWith (minus : Bool) (marks : List Mark) : Prop :=
  ∃ c rest, chars marks = c :: rest ∧
    if minus then c = '-' else continuesName c = true ∨ c ∈ ['(', '!']

/-- What follows some marks leaves their first character as it is. -/
theorem OpensWith.append (opens : OpensWith minus marks) (more : List Mark) :
    OpensWith minus (marks ++ more) := by
  -- The first character is among those of the marks in front.
  obtain ⟨c, rest, first, kind⟩ := opens
  exact ⟨c, rest ++ chars more, by rw [chars_append, first, List.cons_append], kind⟩

/-- Marks in parentheses start with no minus sign. -/
theorem OpensWith.wrap (opens : OpensWith minus marks) (needed : Bool) :
    OpensWith (!needed && minus) (wrap needed marks) := by
  -- With parentheses the first character is a bracket, and without them it is that of the marks.
  cases needed with
  | true => exact ⟨'(', chars marks ++ [')'], by simp [Glsl.wrap], .inr (by simp)⟩
  | false => exact opens

/-- Marks start like the word at their front, which is a name or a number. -/
theorem OpensWith.word {text : String} {c : Char} {rest : List Char} (starts : text.toList = c :: rest)
    (continues : continuesName c = true) (more : List Mark) :
    OpensWith false (.token text :: more) :=
  -- Names and numbers have no minus sign among their characters.
  ⟨c, rest ++ chars more, by rw [chars_token, starts, List.cons_append], .inl continues⟩

/-- Marks start like the name at their front. -/
theorem OpensWith.name {name : String} (isIdentifier : isIdentifier name.toList = true)
    (more : List Mark) : OpensWith false (.token name :: more) := by
  -- A name starts with a letter or an underscore, which goes on with a name as well.
  cases spelt : name.toList with
  | nil =>
    rw [spelt] at isIdentifier
    cases isIdentifier
  | cons c rest =>
    rw [spelt] at isIdentifier
    exact .word spelt (continues_of_startsName (Bool.and_eq_true_iff.mp isIdentifier).1) more

end Opening

/-- A name is an identifier of GLSL. -/
theorem isIdentifier_of_isName {name : String} (isName : IsName name) :
    isIdentifier name.toList = true := by
  -- What starts a name and what continues it is the same in both languages.
  obtain ⟨c, rest, spelt, starts⟩ := isName.starts
  have continues := isName.continues
  rw [spelt] at continues ⊢
  simp only [isIdentifier, starts, Bool.true_and, List.all_eq_true]
  exact fun d member => continues d (List.mem_cons_of_mem c member)

/-- A called name is written as an identifier of GLSL. -/
theorem isIdentifier_callee {name : String} (isName : IsName name) :
    isIdentifier (callee name).toList = true := by
  -- A call is written with its own name, or with one of the two names that stand for others.
  unfold callee
  split
  · rfl
  · split
    · rfl
    · exact isIdentifier_of_isName isName

/-- What is called is written with its name in front. -/
theorem isIdentifier_called {name : String} {arguments : List Expr}
    (valid : (Expr.call name arguments).Valid) : isIdentifier (callee name).toList = true := by
  -- A call is made with the word of a type or with a name, and both are identifiers.
  cases valid with
  | construct => exact isIdentifier_callee (isName_keyword _)
  | call isName => exact isIdentifier_callee isName

/-- The digits of a number are what an operand starts with. -/
theorem OpensWith.digits {text : String} {digits rest : List Char} (nonempty : digits ≠ [])
    (all : ∀ d ∈ digits, d.isDigit = true) (spelt : text.toList = digits ++ rest) :
    OpensWith false [.token text] := by
  -- The first digit is the first character of the number.
  obtain ⟨d, others, rfl⟩ := List.exists_cons_of_ne_nil nonempty
  exact .word spelt (continues_of_isDigit (all d (by simp))) []

/-- An expression is written with what can start an operand in front. -/
theorem opensWith {e : Expr} (valid : e.Valid) : OpensWith (startsWithMinus e) (exprMarks e) := by
  -- By induction on the leftmost part, which is in front unless it stands in parentheses.
  induction valid with
  | @int value =>
    exact .digits Nat.toDigits_ne_nil (isDigit_toDigits value)
      (Nat.toList_repr.trans (List.append_nil _).symm)
  | float finite unsigned =>
    obtain ⟨whole, fraction, same, nonempty, digits, -⟩ := floatLiteral_parts finite unsigned
    exact .digits nonempty digits (by rw [same, String.toList_ofList])
  | @bool value => cases value <;> exact .name rfl []
  | named isName => exact .name (isIdentifier_of_isName isName) []
  | @unary op operand =>
    cases op with
    | negate => exact ⟨'-', _, chars_token _ _, rfl⟩
    | complement => exact ⟨'!', _, chars_token _ _, .inr (by decide)⟩
  -- The leftmost part is an operand, with a parenthesis before it where it binds looser.
  | @binary op left right _ _ ihLeft =>
    have opens := (ihLeft.wrap (binaryRank op < rank left)).append
      (.token op.symbol.spelling :: wrap (binaryRank op ≤ rank right) (exprMarks right))
    simpa only [exprMarks, startsWithMinus, ← decide_not, Nat.not_lt] using opens
  | @ternary condition yes no _ _ _ ihCondition =>
    have opens := (ihCondition.wrap (ternaryRank ≤ rank condition)).append
      (.space :: .token "?" :: .space :: exprMarks yes ++ .space :: .token ":" :: .space :: exprMarks no)
    simpa only [exprMarks, startsWithMinus, ← decide_not, Nat.not_le, List.append_assoc] using opens
  -- Calls start with a name, whatever they are called with.
  | @construct type arguments valid =>
    exact .name (isIdentifier_called (.construct valid)) _
  | call isName free untyped valid =>
    exact .name (isIdentifier_called (.call isName free untyped valid)) _
  -- A suffix is behind its object, so the object is in front.
  | @field object name _ _ _ ih =>
    have opens := (ih.wrap (suffixRank < rank object)).append [.token ".", .token name]
    rwa [wrapSuffix_minus] at opens
  | @index object position _ _ ih =>
    have opens := (ih.wrap (suffixRank < rank object)).append
      (.token "[" :: exprMarks position ++ [.token "]"])
    rw [wrapSuffix_minus, ← List.append_assoc] at opens
    exact opens

section Operators

variable {marks : List Mark} {op : String}

/-- A bracket or a comma is cut off whatever follows. -/
theorem longestWord?_bracket (bracket : op ∈ ["(", ")", "[", "]", ",", "?", ":"]) (after : List Char) :
    longestWord? (op.toList ++ after) = some op.toList := by
  -- The list of brackets is closed, and none of them is part of a longer operator.
  have known : ∀ op ∈ ["(", ")", "[", "]", ",", "?", ":"], op ∈ operators ∧ op ≠ "." := by decide
  obtain ⟨member, noPoint⟩ := known op bracket
  exact longestWord?_operator member (fun c _ => alone_of_bracket bracket c) fun point =>
    absurd point noPoint

/-- An operator is cut off in front of an operand, but for a minus sign in front of another one. -/
theorem longestWord?_operand {minus : Bool} (member : op ∈ operators) (noPoint : op ≠ ".")
    (opens : OpensWith minus marks) (apart : op = "-" → minus = false) :
    longestWord? (op.toList ++ chars marks) = some op.toList := by
  -- Only the first character of the operand matters.
  obtain ⟨c, rest, first, kind⟩ := opens
  refine longestWord?_operator member ?_ fun point => absurd point noPoint
  rw [first]
  rintro d ⟨⟩
  apply alone_of_opens member
  cases minus with
  | true =>
    -- Only a minus sign would go on with another one.
    refine .inr (.inr ⟨kind, fun same => ?_⟩)
    cases apart same
  | false =>
    rcases kind with continues | bracket
    · exact .inl continues
    · refine .inr (.inl ?_)
      simp only [List.mem_cons, List.not_mem_nil, or_false] at bracket ⊢
      rcases bracket with rfl | rfl <;> simp

end Operators

/-- The tokens of an expression are separate wherever its last word can end. -/
def Separates (e : Expr) : Prop :=
  ∀ more, Follows e (chars more) → Separate more → Separate (exprMarks e ++ more)

section Parts

variable {e object position : Expr} {more : List Mark}

/-- A symbol other than a point ends the words of the marks in front of it. -/
theorem endsWords_token {s : Symbol} (noPoint : s ≠ .dot) (marks : List Mark) :
    EndsWords (chars (.token s.spelling :: marks)) := by
  -- The first of the marks is the symbol, and nothing in front of a symbol runs into it.
  rw [chars_token]
  exact endsWords_sign noPoint (chars marks)

/-- Tokens in parentheses or not are separate if they are without. -/
theorem Separates.wrap (separates : Separates e) (needed : Bool)
    (bare : needed = false → Follows e (chars more)) (behind : Separate more) :
    Separate (wrap needed (exprMarks e) ++ more) := by
  cases needed with
  | false => exact separates more (bare rfl) behind
  | true =>
    -- In parentheses, every expression is followed by the end of all words.
    have closes : EndsWords (chars (.token ")" :: more)) :=
      endsWords_token (s := .rightParen) (by decide) more
    have close : Separate (.token ")" :: more) := ⟨longestWord?_bracket (by decide) _, behind⟩
    have inside := separates _ (follows_of_endsWords e closes) close
    simp only [Glsl.wrap, if_true, List.cons_append, List.append_assoc, List.nil_append]
    exact ⟨longestWord?_bracket (by decide) _, inside⟩

/-- Operators between operands are operators of GLSL, and none of them is a point. -/
theorem binary_mem_operators (op : BinaryOp) :
    op.symbol.spelling ∈ operators ∧ op.symbol.spelling ≠ "." := by
  -- There are as many cases as operators.
  cases op <;> decide

/-- Operators before an operand are operators of GLSL, and none of them is a point. -/
theorem unary_mem_operators (op : UnaryOp) :
    op.symbol.spelling ∈ operators ∧ op.symbol.spelling ≠ "." := by
  -- There are as many cases as operators.
  cases op <;> decide

/-- The tokens of a negation or a complement are separate. -/
theorem Separates.unary (op : UnaryOp) (valid : e.Valid) (separates : Separates e) :
    Separates (.unary op e) := by
  intro more follows behind
  -- The operator is separate from the operand, and the operand from what follows.
  obtain ⟨member, noPoint⟩ := unary_mem_operators op
  rw [exprMarks, List.cons_append]
  have opens := ((opensWith valid).wrap
    (unaryRank < rank e || (op == .negate && isNegation e))).append more
  refine ⟨longestWord?_operand member noPoint opens fun minus => ?_, ?_⟩
  · cases op with
    | negate => exact wrapNegated_minus e
    | complement => exact absurd minus (by decide)
  · exact separates.wrap _ (fun _ => follows_of_endsWords e follows) behind

/-- The tokens of two operands with an operator between them are separate, unless two minus signs meet. -/
theorem Separates.binary {op : BinaryOp} {left right : Expr} (validRight : right.Valid)
    (separatesLeft : Separates left) (separatesRight : Separates right)
    (noMinus : op = .subtract → rank right < binaryRank op → startsWithMinus right = false) :
    Separates (.binary op left right) := by
  intro more follows behind
  -- The operator ends the left operand, and is separate from the right one.
  obtain ⟨member, noPoint⟩ := binary_mem_operators op
  rw [exprMarks, List.append_assoc, List.cons_append]
  have opens := ((opensWith validRight).wrap (binaryRank op ≤ rank right)).append more
  have noDot : op.symbol ≠ .dot := by cases op <;> decide
  refine separatesLeft.wrap _ (fun _ => follows_of_endsWords left (endsWords_token noDot _)) ?_
  refine ⟨longestWord?_operand member noPoint opens fun minus => ?_, ?_⟩
  · have subtracts : op = .subtract := by cases op <;> first | rfl | exact absurd minus (by decide)
    -- The right operand is in parentheses, or starts with another character.
    by_cases bare : rank right < binaryRank op
    · rw [noMinus subtracts bare, Bool.and_false]
    · simp [Nat.le_of_not_lt bare]
  · exact separatesRight.wrap _ (fun _ => follows_of_endsWords right follows) behind

/-- The tokens of a choice are separate, since blanks stand around its symbols. -/
theorem Separates.ternary {condition yes no : Expr} (separatesCondition : Separates condition)
    (separatesYes : Separates yes) (separatesNo : Separates no) :
    Separates (.ternary condition yes no) := by
  intro more follows behind
  have blank : ∀ marks, EndsWords (chars (.space :: marks)) := fun marks => by
    rw [chars_space]
    exact endsWords_blank _
  -- From the end to the front, each mark is put before marks that are separate.
  have atNo : Separate (exprMarks no ++ more) :=
    separatesNo more (follows_of_endsWords no follows) behind
  have atColon : Separate (.token ":" :: .space :: (exprMarks no ++ more)) :=
    ⟨longestWord?_bracket (by decide) _, atNo⟩
  have atYes : Separate (exprMarks yes ++ .space :: .token ":" :: .space :: (exprMarks no ++ more)) :=
    separatesYes _ (follows_of_endsWords yes (blank _)) atColon
  have atQuestion : Separate (.token "?" :: .space :: (exprMarks yes ++ _)) :=
    ⟨longestWord?_bracket (by decide) _, atYes⟩
  have spaced : Separate (.space :: .token "?" :: .space :: (exprMarks yes ++ _)) := atQuestion
  -- A condition that is looser than the choice stands in parentheses.
  have atCondition := separatesCondition.wrap (ternaryRank ≤ rank condition)
    (fun _ => follows_of_endsWords condition (blank _)) spaced
  simpa [exprMarks] using atCondition

/-- The arguments of a call are separate when each of them is. -/
theorem separate_arguments {arguments : List Expr} (separates : ∀ e ∈ arguments, Separates e)
    (behind : Separate more) :
    Separate (argumentMarks arguments ++ [.token ")"] ++ more) ∧
      Separate (afterArgument arguments ++ more) := by
  -- Behind each argument there is a comma or the closing parenthesis, and both end it.
  induction arguments with
  | nil =>
    have close : Separate (.token ")" :: more) := ⟨longestWord?_bracket (by decide) _, behind⟩
    exact ⟨close, close⟩
  | cons e es ih =>
    obtain ⟨separatesFirst, separatesMore⟩ := List.forall_mem_cons.mp separates
    have ends : EndsWords (chars (afterArgument es ++ more)) := by
      rw [chars_append]
      exact endsWords_afterArgument es (chars more)
    have whole : Separate (argumentMarks (e :: es) ++ [.token ")"] ++ more) := by
      rw [argumentMarks_cons, List.append_assoc]
      exact separatesFirst _ (follows_of_endsWords e ends) (ih separatesMore).2
    -- Behind another argument, the same marks stand behind a comma.
    refine ⟨whole, longestWord?_bracket (by decide) _, ?_⟩
    exact whole

/-- The tokens of a call are separate when its name is one and its arguments are separate. -/
theorem Separates.call {name : String} {arguments : List Expr}
    (isIdentifier : isIdentifier (callee name).toList = true)
    (separates : ∀ e ∈ arguments, Separates e) : Separates (.call name arguments) := by
  intro more _ behind
  -- The parenthesis ends the name, and is a word of its own.
  have inside := (separate_arguments separates behind).1
  have paren : EndsRun (chars (.token "(" :: (argumentMarks arguments ++ [.token ")"] ++ more))) := by
    rw [chars_token]
    exact endsRun_sign .leftParen _
  exact ⟨longestWord?_identifier isIdentifier paren, longestWord?_bracket (by decide) _, inside⟩

/-- The tokens of a field are separate, unless it is one of an integer. -/
theorem Separates.field {name : String} (isName : IsName name) (separates : Separates object)
    (noInteger : ∀ value, object ≠ .int value) : Separates (.field object name) := by
  intro more follows behind
  have isIdentifier := isIdentifier_of_isName isName
  have atName : Separate (.token name :: more) := ⟨longestWord?_identifier isIdentifier follows, behind⟩
  have atPoint : Separate (.token "." :: .token name :: more) := by
    obtain ⟨c, rest, spelt, starts⟩ := isName.starts
    have member : "." ∈ operators := by decide
    -- A point only goes on with a digit, and no name starts with one.
    refine ⟨longestWord?_operator member ?_ ?_, atName⟩
    · rw [chars_token, spelt]
      rintro d ⟨⟩
      exact alone_of_opens member (.inl (continues_of_startsName starts))
    · rw [chars_token, spelt]
      rintro - d ⟨⟩
      exact not_isDigit_of_startsName starts
  have point : EndsRun (chars (.token "." :: .token name :: more)) := by
    rw [chars_token]
    exact endsRun_sign .dot _
  -- The point ends what the object is written with, unless the object is an integer.
  have atObject := separates.wrap (suffixRank < rank object)
    (fun bare => follows_of_endsRun (by simpa using bare) noInteger point) atPoint
  simpa [exprMarks] using atObject

/-- The tokens of an indexed expression are separate. -/
theorem Separates.index (separatesObject : Separates object) (separatesPosition : Separates position) :
    Separates (.index object position) := by
  intro more _ behind
  -- From right to left: the closing bracket, the position, the opening bracket, the object.
  have closes : EndsWords (chars (.token "]" :: more)) :=
    endsWords_token (s := .rightBracket) (by decide) more
  have atClose : Separate (.token "]" :: more) := ⟨longestWord?_bracket (by decide) _, behind⟩
  have atPosition := separatesPosition _ (follows_of_endsWords position closes) atClose
  have atOpen : Separate (.token "[" :: (exprMarks position ++ .token "]" :: more)) :=
    ⟨longestWord?_bracket (by decide) _, atPosition⟩
  have bracket : EndsWords (chars (.token "[" :: (exprMarks position ++ .token "]" :: more))) :=
    endsWords_token (s := .leftBracket) (by decide) _
  -- The object is wrapped where it is weaker than a suffix, and a parenthesis ends any word.
  have atObject := separatesObject.wrap (suffixRank < rank object)
    (fun _ => follows_of_endsWords object bracket) atOpen
  simpa [exprMarks] using atObject

end Parts

/-- The tokens of a valid expression are separate if no minus signs meet and no integer has a field. -/
theorem separates {e : Expr} (valid : e.Valid) (noField : e.NoIntegerField)
    (noMinus : e.NoDoubleMinus) : Separates e := by
  -- Both conditions pass to all parts; each is needed at one kind of expression only.
  induction valid with
  | @int value =>
    intro more follows behind
    have cut := longestWord?_integer Nat.toDigits_ne_nil (isDigit_toDigits value) follows.run
      follows.noPoint
    rw [← Nat.toList_repr] at cut
    exact ⟨cut, behind⟩
  | float finite unsigned =>
    intro more follows behind
    obtain ⟨whole, fraction, same, nonempty, digitsWhole, digitsFraction, -⟩ :=
      floatLiteral_parts finite unsigned
    have cut := longestWord?_float nonempty digitsWhole digitsFraction follows
    refine ⟨?_, behind⟩
    rw [same, String.toList_ofList]
    exact cut
  | @bool value =>
    intro more follows behind
    cases value <;> exact ⟨longestWord?_identifier rfl follows, behind⟩
  | named isName =>
    intro more follows behind
    exact ⟨longestWord?_identifier (isIdentifier_of_isName isName) follows, behind⟩
  | @unary op operand valid ih =>
    -- Of the parts, the induction hypotheses ask for both conditions again.
    exact .unary op valid (ih (noField.part .operand) (noMinus.part .operand))
  | @binary op left right _ validRight ihLeft ihRight =>
    refine .binary validRight (ihLeft (noField.part .left) (noMinus.part .left))
      (ihRight (noField.part .right) (noMinus.part .right)) ?_
    -- Behind the sign of a difference, an operand without parentheses must not start with a minus.
    rintro rfl bare
    rw [← Bool.not_eq_true]
    exact fun starts => noMinus left right bare starts .self
  | ternary _ _ _ ihCondition ihYes ihNo =>
    exact .ternary (ihCondition (noField.part .condition) (noMinus.part .condition))
      (ihYes (noField.part .yes) (noMinus.part .yes)) (ihNo (noField.part .no) (noMinus.part .no))
  | construct valid ih =>
    exact .call (isIdentifier_called (.construct valid)) fun e member =>
      ih e member (noField.part (.argument member)) (noMinus.part (.argument member))
  | call isName free untyped valid ih =>
    exact .call (isIdentifier_callee isName) fun e member =>
      ih e member (noField.part (.argument member)) (noMinus.part (.argument member))
  | @field object name _ isName _ ih =>
    refine .field isName (ih (noField.part .object) (noMinus.part .object)) ?_
    -- The object of a field is no integer, which would take the point for its own.
    rintro value rfl
    exact noField value name .self
  | index _ _ ihObject ihPosition =>
    exact .index (ihObject (noField.part .indexed) (noMinus.part .indexed))
      (ihPosition (noField.part .position) (noMinus.part .position))

/-- Marks stand among the same ones in parentheses. -/
theorem within_wrap (needed : Bool) (marks : List Mark) : marks <:+: wrap needed marks := by
  -- The parentheses are one token on each side.
  cases needed with
  | false => exact List.infix_rfl
  | true => exact ⟨[.token "("], [.token ")"], rfl⟩

/-- The marks of an argument stand among those of all arguments. -/
theorem within_argumentMarks {argument : Expr} {arguments : List Expr} (member : argument ∈ arguments) :
    exprMarks argument <:+: argumentMarks arguments := by
  -- Along the arguments, since each but the last has a comma behind it.
  induction arguments with
  | nil => cases member
  | cons first others ih =>
    cases others with
    | nil =>
      obtain rfl := List.mem_singleton.mp member
      exact List.infix_rfl
    | cons second others =>
      -- The first argument starts the marks, and all others are behind its comma.
      rcases List.mem_cons.mp member with rfl | later
      · exact (List.prefix_append _ _).isInfix
      · exact (ih later).trans ⟨exprMarks first ++ [.token ",", .space], [], by simp [argumentMarks]⟩

/-- The marks of a part of an expression stand among the marks of the whole. -/
theorem within_exprMarks {part whole : Expr} (within : part.Within whole) :
    exprMarks part <:+: exprMarks whole := by
  -- Each step outwards adds marks in front, behind or on both sides.
  induction within with
  | self => exact List.infix_rfl
  | operand _ ih => exact (ih.trans (within_wrap _ _)).trans (List.suffix_cons _ _).isInfix
  | left _ ih => exact (ih.trans (within_wrap _ _)).trans (List.prefix_append _ _).isInfix
  | right _ ih =>
    exact (ih.trans (within_wrap _ _)).trans
      ((List.suffix_cons _ _).trans (List.suffix_append _ _)).isInfix
  | condition _ ih =>
    exact (ih.trans (within_wrap _ _)).trans
      ((List.prefix_append _ _).trans (List.prefix_append _ _)).isInfix
  -- Around the branches of a choice there are marks on both sides.
  | @yes condition yes no _ ih =>
    refine ih.trans ⟨wrap (ternaryRank ≤ rank condition) (exprMarks condition) ++
      [.space, .token "?", .space], .space :: .token ":" :: .space :: exprMarks no, ?_⟩
    simp [exprMarks]
  | @no condition yes no _ ih =>
    refine ih.trans ⟨wrap (ternaryRank ≤ rank condition) (exprMarks condition) ++
      .space :: .token "?" :: .space :: exprMarks yes ++ [.space, .token ":", .space], [], ?_⟩
    simp [exprMarks]
  -- Arguments are separated by commas, which a lemma of their own passes over.
  | @argument name arguments _ member _ ih =>
    exact (ih.trans (within_argumentMarks member)).trans
      ⟨[.token (callee name), .token "("], [.token ")"], by simp [exprMarks]⟩
  | object _ ih => exact (ih.trans (within_wrap _ _)).trans (List.prefix_append _ _).isInfix
  | indexed _ ih =>
    exact (ih.trans (within_wrap _ _)).trans
      ((List.prefix_append _ _).trans (List.prefix_append _ _)).isInfix
  | @position object position _ ih =>
    exact ih.trans ⟨wrap (suffixRank < rank object) (exprMarks object) ++ [.token "["],
      [.token "]"], by simp [exprMarks]⟩

/-- Tokens are not separate where one of them is a word together with the character behind it. -/
theorem Separate.not_longer {marks rest : List Mark} {text : String} {c : Char}
    (separate : Separate marks) (written : .token text :: rest <:+: marks)
    (next : ∀ more, ∃ behind, chars (rest ++ more) = c :: behind) :
    isWord (text.toList ++ [c]) = false := by
  -- Marks further out only change what is behind the character.
  obtain ⟨before, more, rfl⟩ := written
  rw [List.append_assoc] at separate
  have cut := separate.right.1
  obtain ⟨behind, follows⟩ := next more
  rw [← Bool.not_eq_true]
  intro longer
  apply longestWord?_ne_of_longer longer
  rwa [← follows]

/-- Where tokens are separate, no integer has a field. -/
theorem noIntegerField_of_separate {e : Expr} (valid : e.Valid) (separate : Separate (exprMarks e)) :
    e.NoIntegerField := by
  intro value name within
  -- A field has an object, and only that of an integer is excluded.
  cases within.valid valid with
  | field object =>
    cases object with
    | @int value =>
      have written : .token value.repr :: [.token ".", .token name] <:+: exprMarks e :=
        within_exprMarks within
      -- Digits with a point behind them are a float.
      have float : isFloat (Nat.toDigits 10 value ++ ['.']) = true :=
        isFloat_point Nat.toDigits_ne_nil (isDigit_toDigits value) (by simp)
      have apart := separate.not_longer written (c := '.') fun more => ⟨_, by simp; rfl⟩
      rw [Nat.toList_repr] at apart
      simp [isWord, float] at apart

/-- Where tokens are separate, no two minus signs meet. -/
theorem noDoubleMinus_of_separate {e : Expr} (valid : e.Valid) (separate : Separate (exprMarks e)) :
    e.NoDoubleMinus := by
  intro left right bare starts within
  -- No parentheses are around the right operand, so that its marks follow the sign.
  have inside : .token "-" :: exprMarks right <:+: exprMarks (.binary .subtract left right) := by
    have bare : decide (binaryRank .subtract ≤ rank right) = false := by simpa using bare
    rw [exprMarks, bare]
    exact (List.suffix_append _ _).isInfix
  have validRight : right.Valid := by
    cases within.valid valid with
    | binary _ right => exact right
  -- The two signs would be cut as one operator.
  have apart := separate.not_longer (inside.trans (within_exprMarks within)) (c := '-') fun more => by
    obtain ⟨c, rest, first, minus⟩ := opensWith validRight
    rw [starts, if_pos rfl] at minus
    exact ⟨rest ++ chars more, by rw [chars_append, first, minus, List.cons_append]⟩
  cases apart

/--
Written expressions are cut by GLSL into the tokens that were written, with two exceptions.

An integer and the point of its field are cut as a float.
The sign of a difference and a minus sign behind it are cut as the operator of two signs.
-/
theorem words?_exprMarks_iff {name source : String} {defines : Defines} {program : Program} {e : Expr}
    (parsed : Program.parse name defines source = .ok program) (mentioned : program.Mentions e) :
    words? (render (exprMarks e)) = some (tokens (exprMarks e)) ↔
      e.NoIntegerField ∧ e.NoDoubleMinus := by
  -- Both directions go through the separation of adjoining tokens.
  have valid := Grammar.valid_of_parse parsed mentioned
  rw [words?_render_iff]
  constructor
  · intro separate
    exact ⟨noIntegerField_of_separate valid separate, noDoubleMinus_of_separate valid separate⟩
  · rintro ⟨noField, noMinus⟩
    -- Nothing is written behind the whole expression, which ends every word.
    have nothing : Follows e (chars []) := follows_of_endsWords e ⟨by simp [EndsRun], by simp⟩
    have separate := separates valid noField noMinus [] nothing trivial
    rwa [List.append_nil] at separate

/-- A sum with something negative keeps its tokens. -/
theorem words?_exprMarks_sum :
    let sum : Expr := .binary .add (.variable "a") (.unary .negate (.variable "b"))
    let program : Program := { Program.empty "sum" .empty with
      vertex := some [.assign (.variable "x") .set sum] }
    Program.parse "sum" .empty "vertex \x7b x = a + -b; \x7d" = .ok program ∧ program.Mentions sum ∧
      words? (render (exprMarks sum)) = some (tokens (exprMarks sum)) := by
  -- The parts of the sum are few, and none of them is a field or a difference.
  dsimp only
  have parsed : Program.parse "sum" .empty "vertex \x7b x = a + -b; \x7d" = .ok _ := rfl
  have noField : (Expr.binary .add (.variable "a") (.unary .negate (.variable "b"))).NoIntegerField := by
    intro value name within
    cases within with
    | left inside => cases inside
    | right inside =>
      cases inside with
      | operand inside => cases inside
  have noMinus : (Expr.binary .add (.variable "a") (.unary .negate (.variable "b"))).NoDoubleMinus := by
    intro left right _ _ within
    cases within with
    | left inside => cases inside
    | right inside =>
      cases inside with
      | operand inside => cases inside
  -- The sum is on the right of the only assignment.
  refine ⟨parsed, ⟨.vertex, _, _, _, rfl, .head _, .value, .self⟩, ?_⟩
  exact (words?_exprMarks_iff parsed ⟨.vertex, _, _, _, rfl, .head _, .value, .self⟩).mpr
    ⟨noField, noMinus⟩

/-- A difference with something negative loses its tokens, since the two signs are cut as one operator. -/
theorem words?_exprMarks_difference :
    let difference : Expr := .binary .subtract (.variable "a") (.unary .negate (.variable "b"))
    let program : Program := { Program.empty "difference" .empty with
      vertex := some [.assign (.variable "x") .set difference], fragment := some [] }
    Program.parse "difference" .empty "vertex \x7b x = a - -b; \x7d fragment \x7b \x7d" = .ok program ∧
      program.Mentions difference ∧ tokens (exprMarks difference) = ["a", "-", "-", "b"] ∧
      words? (render (exprMarks difference)) = some ["a", "--", "b"] := by
  -- The text is closed, so the words are computed.
  refine ⟨rfl, ⟨.vertex, _, _, _, rfl, .head _, .value, .self⟩, rfl, ?_⟩
  decide +kernel

end Glsl

end Shading

import Shading.Glsl.Expr
import Shading.Proofs.Grammar.ExprComplete
import Shading.Proofs.Lexer.Spelling

/-! Written characters as phrases of the grammar, whatever else is written after them. -/

namespace Shading.Glsl

open Cursor Grammar ExprPhrase

/-- The characters of marks. -/
def chars (marks : List Mark) : List Char :=
  (render marks).toList

@[simp] theorem chars_nil : chars [] = [] := by
  -- No mark leaves no text.
  simp [chars, render]

@[simp] theorem chars_token (text : String) (marks : List Mark) :
    chars (.token text :: marks) = text.toList ++ chars marks := by
  -- A token is written as it is.
  simp [chars, render, Mark.text]

@[simp] theorem chars_space (marks : List Mark) : chars (.space :: marks) = ' ' :: chars marks := by
  -- A space is written as one blank.
  simp [chars, render, Mark.text]

@[simp] theorem chars_newline (marks : List Mark) :
    chars (.newline :: marks) = '\n' :: chars marks := by
  -- The end of a line is written as one line feed.
  simp [chars, render, Mark.text]

@[simp] theorem chars_append (marks more : List Mark) :
    chars (marks ++ more) = chars marks ++ chars more := by
  -- The texts of the marks are joined one behind the other.
  simp [chars, render]

/-- The characters go on with nothing that a word at their front could be continued with. -/
structure EndsWords (after : List Char) : Prop where
  run : EndsRun after
  noPoint : '.' ∉ after.head?

/-- A symbol ends every name before it. -/
theorem endsRun_sign (s : Symbol) (after : List Char) : EndsRun (s.spelling.toList ++ after) := by
  intro c first
  -- The first character of a symbol is neither a letter nor a digit.
  cases s <;> exact Option.some.inj first ▸ rfl

/-- A symbol other than a point ends every word before it. -/
theorem endsWords_sign {s : Symbol} (noPoint : s ≠ .dot) (after : List Char) :
    EndsWords (s.spelling.toList ++ after) := by
  -- The point is the only symbol that may be part of the number in front of it.
  refine ⟨endsRun_sign s after, ?_⟩
  cases s <;> simp [Symbol.spelling] at noPoint ⊢

/-- A blank ends every word before it. -/
theorem endsWords_blank (after : List Char) : EndsWords (' ' :: after) := by
  -- A blank neither continues a name or number nor is it a point.
  refine ⟨fun c first => ?_, by simp⟩
  exact Option.some.inj first ▸ rfl

/--
Marks are read as a phrase within some number of levels.

The phrase is read wherever the characters behind it allow its last word to end.
What stands in front of the marks may be a symbol, which none of them continues.
-/
def ReadsAs (line : Nat) (follow : List Char → Prop) (marks : List Mark) (phrase : ExprPhrase) :
    Prop :=
  ∃ words room,
    (∀ after, EndsSymbol (chars marks ++ after)) ∧
    (∀ after, follow after → Cuts line (chars marks ++ after) words after) ∧
    ∀ rest, phrase.Spans room (words ++ rest) rest

namespace ReadsAs

variable {line : Nat} {follow : List Char → Prop} {marks : List Mark} {phrase : ExprPhrase}

/-- What is read as a phrase is read as every phrase that rules of the grammar make of it. -/
theorem become {other : ExprPhrase} (reads : ReadsAs line follow marks phrase)
    (rule : ∀ {room tokens rest}, phrase.Spans room tokens rest → other.Spans (room + 1) tokens rest) :
    ReadsAs line follow marks other := by
  -- The words stay the same, and the rule takes one level more.
  obtain ⟨words, room, opens, cuts, spans⟩ := reads
  exact ⟨words, room + 1, opens, cuts, fun rest => rule (spans rest)⟩

/-- What is read before more is read before less. -/
theorem before {narrower : List Char → Prop} (reads : ReadsAs line follow marks phrase)
    (less : ∀ after, narrower after → follow after) : ReadsAs line narrower marks phrase := by
  -- The words stay the same, and only the condition on what follows is used more seldom.
  obtain ⟨words, room, opens, cuts, spans⟩ := reads
  exact ⟨words, room, opens, fun after holds => cuts after (less after holds), spans⟩

/-- A single word is read as a primary expression. -/
theorem word {text : String} {lexeme : Lexeme} {e : Expr}
    (opens : ∃ c rest, text.toList = c :: rest ∧ continuesName c = true)
    (cut : ∀ after, follow after →
      next ⟨text.toList ++ after, line⟩ = ⟨.ok ⟨lexeme, line⟩, ⟨after, line⟩⟩)
    (notEnd : lexeme ≠ .endOfFile)
    (spans : ∀ rest, (primary e).Spans 0 (⟨lexeme, line⟩ :: rest) rest) :
    ReadsAs line follow [.token text] (.primary e) := by
  -- The word is cut off by what follows, and it is the only word of the phrase.
  obtain ⟨c, rest, starts, continues⟩ := opens
  refine ⟨[⟨lexeme, line⟩], 0, ?_, ?_, spans⟩
  · intro after
    simpa [starts, EndsSymbol] using noHalf_of_continuesName continues
  · intro after holds
    simp only [chars_token, chars_nil, List.append_nil]
    exact .single (cut after holds) (by simpa [Token.isEnd] using notEnd)

/-- An expression in parentheses is read whatever follows. -/
theorem parenthesised {e : Expr} (reads : ReadsAs line EndsWords marks (.expression e)) :
    ReadsAs line (fun _ => True) (.token "(" :: marks ++ [.token ")"]) (.primary e) := by
  obtain ⟨words, room, opens, cuts, spans⟩ := reads
  -- The words are those of the expression with the two parentheses around them.
  refine ⟨sign .leftParen line :: words ++ [sign .rightParen line], room, ?_, ?_, ?_⟩
  · simp [EndsSymbol]
  · intro after _
    have closes : EndsWords (Symbol.rightParen.spelling.toList ++ after) :=
      endsWords_sign (by decide) after
    -- The closing parenthesis is a word of its own, whatever stands behind it.
    have inner := (cuts _ closes).append (.sign .rightParen (.inl rfl) .none)
    simpa [Symbol.spelling] using Cuts.sign .leftParen (.inr (.inr (opens _))) inner
  · intro rest
    have inner := spans (sign .rightParen line :: rest)
    simpa using Spans.parenthesised inner

/-- Marks in parentheses or not are read as a phrase if those without are where it matters. -/
theorem wrap {needed : Bool} {e : Expr} (inner : ReadsAs line EndsWords marks (.expression e))
    (rule : ∀ {room tokens rest}, (primary e).Spans room tokens rest →
      phrase.Spans (room + 1) tokens rest)
    (bare : needed = false → ReadsAs line follow marks phrase) :
    ReadsAs line follow (wrap needed marks) phrase := by
  -- What stands in parentheses is read as a primary, wherever it occurs.
  cases needed with
  | true => exact (inner.parenthesised.become rule).before fun _ _ => trivial
  | false => exact bare rfl

/-- An operator before its operand is read. -/
theorem unary {op : UnaryOp} {e : Expr} (operand : ReadsAs line EndsWords marks (.operand e)) :
    ReadsAs line EndsWords (.token op.symbol.spelling :: marks) (.operand (.unary op e)) := by
  obtain ⟨words, room, opens, cuts, spans⟩ := operand
  refine ⟨sign op.symbol line :: words, room + 1, ?_, ?_, fun rest => .signed (spans rest)⟩
  · cases op <;> simp [EndsSymbol, UnaryOp.symbol, Symbol.spelling]
  · intro after ends
    -- The operand starts with no second half of a symbol.
    simpa using Cuts.sign op.symbol (.inr (.inr (opens after))) (cuts after ends)

/-- Two operands with an operator between them are read. -/
theorem binary {op : BinaryOp} {left right : Expr} {count count' : Nat} {leftMarks rightMarks : List Mark}
    (readsLeft : ReadsAs line EndsWords leftMarks (.joined op.precedence count left))
    (readsRight : ReadsAs line EndsWords rightMarks (.joined (op.precedence + 1) count' right)) :
    ReadsAs line EndsWords (leftMarks ++ .token op.symbol.spelling :: rightMarks)
      (.joined op.precedence (count + 1) (.binary op left right)) := by
  obtain ⟨wordsLeft, roomLeft, opensLeft, cutsLeft, spansLeft⟩ := readsLeft
  obtain ⟨wordsRight, roomRight, opensRight, cutsRight, spansRight⟩ := readsRight
  -- Enough levels for both operands and for all operators of the chain.
  let room := max (max roomLeft roomRight) (count + 1)
  refine ⟨wordsLeft ++ sign op.symbol line :: wordsRight, room, ?_, ?_, ?_⟩
  · intro after
    simpa using opensLeft (op.symbol.spelling.toList ++ (chars rightMarks ++ after))
  · intro after ends
    have noPoint : op.symbol ≠ .dot := by cases op <;> simp [BinaryOp.symbol]
    have left := cutsLeft _ (endsWords_sign noPoint (chars rightMarks ++ after))
    have right := Cuts.sign op.symbol (.inr (.inr (opensRight after))) (cutsRight after ends)
    simpa using left.append right
  · intro rest
    have fits : roomLeft ≤ room ∧ roomRight ≤ room ∧ count < room := by omega
    -- The left operand is followed by the operator, and the right one by the rest.
    have left := (spansLeft (sign op.symbol line :: (wordsRight ++ rest))).mono fits.1
    have right := (spansRight rest).mono fits.2.1
    simpa using Spans.join left right fits.2.2

/-- A choice between two expressions is read. -/
theorem ternary {condition yes no : Expr} {count : Nat}
    {conditionMarks yesMarks noMarks : List Mark}
    (readsCondition : ReadsAs line EndsWords conditionMarks (.joined 1 count condition))
    (readsYes : ReadsAs line EndsWords yesMarks (.expression yes))
    (readsNo : ReadsAs line EndsWords noMarks (.expression no)) :
    ReadsAs line EndsWords
      (conditionMarks ++ .space :: .token "?" :: .space :: yesMarks ++
        .space :: .token ":" :: .space :: noMarks)
      (.expression (.ternary condition yes no)) := by
  obtain ⟨wordsCondition, roomCondition, opensCondition, cutsCondition, spansCondition⟩ :=
    readsCondition
  obtain ⟨wordsYes, roomYes, _, cutsYes, spansYes⟩ := readsYes
  obtain ⟨wordsNo, roomNo, _, cutsNo, spansNo⟩ := readsNo
  -- The room is that of the part that takes most.
  let room := max (max roomCondition roomYes) roomNo
  refine ⟨wordsCondition ++ sign .question line :: (wordsYes ++ sign .colon line :: wordsNo),
    room + 1, ?_, ?_, ?_⟩
  · intro after
    simpa using opensCondition _
  · intro after ends
    -- Blanks stand on both sides of the two symbols.
    have blank : ∀ rest, EndsSymbol (' ' :: rest) := by simp [EndsSymbol]
    have atColon := Cuts.sign .colon (.inr (.inr (blank _))) (cutsNo after ends).blank
    have atYes := (cutsYes _ (endsWords_blank _)).append atColon.blank
    have atQuestion := Cuts.sign .question (.inr (.inr (blank _))) atYes.blank
    simpa [Symbol.spelling] using (cutsCondition _ (endsWords_blank _)).append atQuestion.blank
  · intro rest
    have fits : roomCondition ≤ room ∧ roomYes ≤ room ∧ roomNo ≤ room := by omega
    have afterYes := (spansNo rest).mono fits.2.2
    have afterCondition := (spansYes (sign .colon line :: (wordsNo ++ rest))).mono fits.2.1
    -- The parts are joined from the last one to the first.
    have whole := (spansCondition (sign .question line ::
      (wordsYes ++ sign .colon line :: (wordsNo ++ rest)))).mono fits.1
    simpa using Spans.ternary whole afterCondition afterYes

/-- A field of an expression is read, unless the expression is an integer without parentheses. -/
theorem field {object : Expr} {name : String} (isName : IsName name)
    (free : isReserved name = false) (reads : ReadsAs line EndsRun marks (.suffixed object)) :
    ReadsAs line EndsRun (marks ++ [.token ".", .token name]) (.suffixed (.field object name)) := by
  obtain ⟨words, room, opens, cuts, spans⟩ := reads
  refine ⟨words ++ [sign .dot line, Grammar.word name line], room, ?_, ?_, ?_⟩
  · intro after
    simpa using opens _
  · intro after ends
    -- The name is cut off by what is behind it, and the point by the name.
    have readName : Cuts line (name.toList ++ after) [Grammar.word name line] after :=
      .single (next_name isName ends) rfl
    have readDot := Cuts.sign .dot (.inr (.inr (isName.endsSymbol after))) readName
    have point : EndsRun (Symbol.dot.spelling.toList ++ (name.toList ++ after)) :=
      endsRun_sign .dot _
    simpa [Symbol.spelling] using (cuts _ point).append readDot
  · intro rest
    -- The suffix needs no level of its own.
    have object := spans (sign .dot line :: Grammar.word name line :: rest)
    simpa using Spans.field object free

/-- A position of an expression is read. -/
theorem index {object position : Expr} {positionMarks : List Mark}
    (readsObject : ReadsAs line EndsWords marks (.suffixed object))
    (readsPosition : ReadsAs line EndsWords positionMarks (.expression position)) :
    ReadsAs line EndsRun (marks ++ .token "[" :: positionMarks ++ [.token "]"])
      (.suffixed (.index object position)) := by
  obtain ⟨wordsObject, roomObject, opensObject, cutsObject, spansObject⟩ := readsObject
  obtain ⟨words, roomPosition, opens, cuts, spans⟩ := readsPosition
  let room := max roomObject roomPosition
  refine ⟨wordsObject ++ sign .leftBracket line :: (words ++ [sign .rightBracket line]), room, ?_, ?_, ?_⟩
  · intro after
    simpa using opensObject _
  · intro after _
    have closes : EndsWords (Symbol.rightBracket.spelling.toList ++ after) :=
      endsWords_sign (by decide) after
    -- The closing bracket is a word of its own, whatever stands behind it.
    have inner := (cuts _ closes).append (.sign .rightBracket (.inr (.inl rfl)) .none)
    have inBrackets := Cuts.sign .leftBracket (.inr (.inr (opens _))) inner
    have bracket : EndsWords (Symbol.leftBracket.spelling.toList ++ _) :=
      endsWords_sign (by decide) (chars positionMarks ++ (Symbol.rightBracket.spelling.toList ++ after))
    simpa [Symbol.spelling] using (cutsObject _ bracket).append inBrackets
  · intro rest
    have fits : roomObject ≤ room ∧ roomPosition ≤ room := by omega
    -- The position is an expression of its own between the brackets.
    have position := (spans (sign .rightBracket line :: rest)).mono fits.2
    have object := (spansObject (sign .leftBracket line ::
      (words ++ sign .rightBracket line :: rest))).mono fits.1
    simpa using Spans.index object position

/-- The parenthesis behind the arguments of a call is read as the end of them. -/
theorem endArguments (rule : ∀ {room rest}, phrase.Spans room (sign .rightParen line :: rest) rest) :
    ReadsAs line (fun _ => True) [.token ")"] phrase := by
  -- A parenthesis is a word of one character, whatever follows it.
  refine ⟨[sign .rightParen line], 0, ?_, ?_, fun rest => rule⟩
  · simp [EndsSymbol]
  · intro after _
    simpa [Symbol.spelling] using Cuts.sign .rightParen (.inl rfl) .none

/-- An argument of a call is read before what is behind it. -/
theorem firstArgument {e : Expr} {es : List Expr} {more : List Mark}
    (reads : ReadsAs line EndsWords marks (.expression e))
    (readsMore : ReadsAs line follow more (.moreArguments es))
    (ends : ∀ after, EndsWords (chars more ++ after)) :
    ReadsAs line follow (marks ++ more) (.arguments (e :: es)) := by
  -- The words of the argument stand in front of those of the others.
  obtain ⟨words, room, opens, cuts, spans⟩ := reads
  obtain ⟨wordsMore, roomMore, _, cutsMore, spansMore⟩ := readsMore
  refine ⟨words ++ wordsMore, max room roomMore, ?_, ?_, ?_⟩
  · intro after
    simpa using opens _
  · intro after holds
    simpa using (cuts _ (ends after)).append (cutsMore after holds)
  · -- Both are spanned in the room that the larger of them takes.
    intro rest
    have first := (spans (wordsMore ++ rest)).mono (Nat.le_max_left room roomMore)
    have others := (spansMore rest).mono (Nat.le_max_right room roomMore)
    simpa using Spans.firstArgument first others

/-- Behind a comma, arguments go on after another one. -/
theorem nextArgument {e : Expr} {es : List Expr}
    (reads : ReadsAs line follow marks (.arguments (e :: es))) :
    ReadsAs line follow (.token "," :: .space :: marks) (.moreArguments (e :: es)) := by
  obtain ⟨words, room, _, cuts, spans⟩ := reads
  refine ⟨sign .comma line :: words, room, ?_, ?_, ?_⟩
  · simp [EndsSymbol]
  · intro after holds
    have blank : EndsSymbol (' ' :: (chars marks ++ after)) := by simp [EndsSymbol]
    simpa [Symbol.spelling] using Cuts.sign .comma (.inr (.inr blank)) (cuts after holds).blank
  · intro rest
    -- Arguments of which there is one start with an argument that others may follow.
    cases spans rest with
    | firstArgument first more => exact .nextArgument first more

/-- A name with arguments in parentheses is read as a call if rules of the grammar make it one. -/
theorem call {name : String} {es : List Expr} (isName : IsName name)
    (rule : ∀ {room tokens rest}, (arguments es).Spans room tokens rest →
      (suffixed (.call name es)).Spans room
        (Grammar.word name line :: sign .leftParen line :: tokens) rest)
    (reads : ReadsAs line (fun _ => True) marks (.arguments es)) :
    ReadsAs line EndsRun (.token name :: .token "(" :: marks) (.suffixed (.call name es)) := by
  obtain ⟨words, room, opens, cuts, spans⟩ := reads
  -- The name and the parenthesis need no room of their own.
  refine ⟨Grammar.word name line :: sign .leftParen line :: words, room, ?_, ?_,
    fun rest => rule (spans rest)⟩
  · intro after
    simpa using isName.endsSymbol _
  · intro after _
    -- The parenthesis is cut off by the arguments, and ends the name.
    have inParens := Cuts.sign .leftParen (.inr (.inr (opens after))) (cuts after trivial)
    have paren : EndsRun (Symbol.leftParen.spelling.toList ++ (chars marks ++ after)) :=
      endsRun_sign .leftParen _
    have readName : next ⟨name.toList ++ _, line⟩ = _ := next_name isName paren
    simpa [Symbol.spelling] using Cuts.next readName rfl inParens

end ReadsAs

end Shading.Glsl

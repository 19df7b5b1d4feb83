import Shading.Proofs.Glsl.Precedence
import Shading.Proofs.Grammar.Contents

/-! Written expressions are read back as the expressions they were written for. -/

namespace Shading

/-- No field of an integer literal is part of an expression. -/
def Expr.NoIntegerField (e : Expr) : Prop :=
  ∀ value name, ¬(Expr.field (.int value) name).Within e

/-- Parts of an expression without fields of integers have none either. -/
theorem Expr.NoIntegerField.part {part whole : Expr} (noField : whole.NoIntegerField)
    (inside : ∀ {e : Expr}, e.Within part → e.Within whole) : part.NoIntegerField :=
  -- A field of an integer in the part would be one in the whole.
  fun value name within => noField value name (inside within)

namespace Glsl

open Cursor Grammar ExprPhrase

variable {line : Nat}

/-- A written integer reads back where no point follows. -/
theorem int_readsBack {value : Nat} (small : value ≤ largestInteger) :
    ReadsBack line (.int value) := by
  have opens : ∃ c rest, value.repr.toList = c :: rest ∧ continuesName c = true := by
    obtain ⟨c, rest, digits⟩ := List.exists_cons_of_ne_nil (@Nat.toDigits_ne_nil value 10)
    have first : c ∈ Nat.toDigits 10 value := by simp [digits]
    refine ⟨c, rest, Nat.toList_repr.trans digits, continues_of_isDigit ?_⟩
    exact Nat.isDigit_of_mem_toDigits (by decide) (by decide) first
  -- The word is read up to its end, unless a point made a float of it.
  have word : ReadsAs line EndsWords [.token value.repr] (.primary (.int value)) :=
    .word opens (fun after ends => next_repr small ends.run ends.noPoint) (by simp) fun _ => .int
  exact ⟨0, word.become fun spans => .bare spans.step⟩

/-- A written float reads back, also in front of a point. -/
theorem float_readsBack {value : Binary32} (finite : value.isFinite = true)
    (unsigned : value.isNegative = false) : ReadsBack line (.float value) := by
  -- There is a digit before the point of every float.
  have opens : ∃ c rest, (floatLiteral value).toList = c :: rest ∧ continuesName c = true := by
    obtain ⟨whole, fraction, same, nonempty, digits, -⟩ := floatLiteral_parts finite unsigned
    obtain ⟨c, rest, rfl⟩ := List.exists_cons_of_ne_nil nonempty
    refine ⟨c, rest ++ '.' :: fraction, ?_, continues_of_isDigit (digits c (by simp))⟩
    rw [same, String.toList_ofList, List.cons_append]
  have word : ReadsAs line EndsRun [.token (floatLiteral value)] (.primary (.float value)) :=
    .word opens (fun after ends => next_floatLiteral finite unsigned ends) (by simp) fun _ => .float
  exact ⟨0, word.become fun spans => .bare spans.step⟩

/-- A written truth value reads back. -/
theorem bool_readsBack (value : Bool) : ReadsBack line (.bool value) := by
  -- Both truth values are words that are read as they are written.
  have opens : ∃ c rest, (if value then "true" else "false").toList = c :: rest ∧
      continuesName c = true := by
    cases value
    · exact ⟨'f', _, rfl, rfl⟩
    · exact ⟨'t', _, rfl, rfl⟩
  have word : ReadsAs line EndsRun [.token (if value then "true" else "false")] (.primary (.bool value)) :=
    .word opens (fun after ends => next_boolean value ends) (by simp) fun _ => .bool
  exact ⟨0, word.become fun spans => .bare spans.step⟩

/-- A written name reads back. -/
theorem variable_readsBack {name : String} (isName : IsName name) (free : isReserved name = false)
    (untyped : DataType.ofKeyword? name = none) : ReadsBack line (.variable name) := by
  -- A name that is not reserved and names no type is a primary expression.
  have opens : ∃ c rest, name.toList = c :: rest ∧ continuesName c = true := by
    obtain ⟨c, rest, same, starts⟩ := isName.starts
    exact ⟨c, rest, same, continues_of_startsName starts⟩
  have word : ReadsAs line EndsRun [.token name] (.primary (.variable name)) :=
    .word opens (fun after ends => next_name isName ends) (by simp) fun _ => .named free untyped
  exact ⟨0, word.become fun spans => .bare spans.step⟩

/-- What is written behind an argument of a call, the closing parenthesis included. -/
def afterArgument : List Expr → List Mark
  | [] => [.token ")"]
  | more => .token "," :: .space :: argumentMarks more ++ [.token ")"]

/-- The arguments of a call are written as the first one and what is behind it. -/
theorem argumentMarks_cons (e : Expr) (es : List Expr) :
    argumentMarks (e :: es) ++ [.token ")"] = exprMarks e ++ afterArgument es := by
  -- The comma stands behind the first argument exactly if there is another one.
  cases es <;> simp [argumentMarks, afterArgument]

/-- A comma or the closing parenthesis ends an argument. -/
theorem endsWords_afterArgument (es : List Expr) (after : List Char) :
    EndsWords (chars (afterArgument es) ++ after) := by
  -- Neither symbol is a point, so that no number goes on with it.
  cases es with
  | nil =>
    have paren : EndsWords (Symbol.rightParen.spelling.toList ++ after) :=
      endsWords_sign (by decide) after
    simpa [afterArgument, Symbol.spelling] using paren
  | cons e es =>
    have comma : EndsWords (Symbol.comma.spelling.toList ++ _) :=
      endsWords_sign (by decide) (' ' :: (chars (argumentMarks (e :: es)) ++ ")".toList ++ after))
    simpa [afterArgument, Symbol.spelling] using comma

/-- The arguments of a call read back when each of them does. -/
theorem arguments_readBack {es : List Expr} (reads : ∀ e ∈ es, ReadsBack line e) :
    ReadsAs line (fun _ => True) (argumentMarks es ++ [.token ")"]) (.arguments (renamedAll es)) ∧
      ReadsAs line (fun _ => True) (afterArgument es) (.moreArguments (renamedAll es)) := by
  induction es with
  | nil => exact ⟨.endArguments .noArguments, .endArguments .endArguments⟩
  | cons e es ih =>
    obtain ⟨readsFirst, readsMore⟩ := List.forall_mem_cons.mp reads
    have whole : ReadsAs line (fun _ => True) (argumentMarks (e :: es) ++ [.token ")"])
        (.arguments (renamedAll (e :: es))) := by
      rw [argumentMarks_cons]
      exact readsFirst.expression.firstArgument (ih readsMore).2 (endsWords_afterArgument es)
    -- Behind another argument, the same marks are read behind a comma.
    exact ⟨whole, whole.nextArgument⟩

/-- A call of a type reads back as the call of what it is named in GLSL. -/
theorem construct_readsBack (type : DataType) {arguments : List Expr}
    (reads : ∀ e ∈ arguments, ReadsBack line e) : ReadsBack line (.call type.keyword arguments) := by
  obtain ⟨readsArguments, -⟩ := arguments_readBack reads
  refine ⟨0, ?_⟩
  -- Textures are read through samplers, whose type is a plain name in the grammar.
  by_cases texture : type = .texture2D
  · subst texture
    have isName : IsName "sampler2D" := ⟨⟨_, _, rfl, rfl⟩, List.all_eq_true.mp rfl, by decide, by decide⟩
    exact .call isName (fun spans => .call (.bare (.named rfl rfl)) spans) readsArguments
  · have same : callee type.keyword = type.keyword := by
      cases type <;> first | rfl | exact absurd rfl texture
    have reading := ReadsAs.call (isName_keyword type) (fun spans => .construct spans) readsArguments
    simpa only [exprMarks, phrase, Follows, Expr.renamed, same, List.cons_append] using reading

/-- A call of a name reads back as the call of what it is named in GLSL. -/
theorem call_readsBack {name : String} {arguments : List Expr} (isName : IsName name)
    (free : isReserved name = false) (untyped : DataType.ofKeyword? name = none)
    (reads : ∀ e ∈ arguments, ReadsBack line e) : ReadsBack line (.call name arguments) := by
  obtain ⟨readsArguments, -⟩ := arguments_readBack reads
  refine ⟨0, ?_⟩
  -- Only `sample` is called by another name, which is free as well.
  by_cases sample : name = "sample"
  · subst sample
    have isName : IsName "texture" := ⟨⟨_, _, rfl, rfl⟩, List.all_eq_true.mp rfl, by decide, by decide⟩
    exact .call isName (fun spans => .call (.bare (.named rfl rfl)) spans) readsArguments
  · -- A name that is no type cannot be the one of the texture type either.
    have same : callee name = name := by
      have noTexture : name ≠ "texture2D" := by
        rintro rfl
        cases untyped
      simp [callee, sample, noTexture]
    have reading := ReadsAs.call isName (fun spans => .call (.bare (.named free untyped)) spans)
      readsArguments
    simpa only [exprMarks, phrase, Follows, Expr.renamed, same, List.cons_append] using reading

/-- Every valid expression without fields of integers reads back. -/
theorem readsBack {e : Expr} (valid : e.Valid) (noField : e.NoIntegerField) : ReadsBack line e := by
  induction valid with
  | int small => exact int_readsBack small
  | float finite unsigned => exact float_readsBack finite unsigned
  | bool => exact bool_readsBack _
  | named isName free untyped => exact variable_readsBack isName free untyped
  | unary _ ih =>
    have reads := ih (noField.part .operand)
    refine ⟨0, .unary (reads.wrapOperand fun bare => ?_)⟩
    -- What is not looser than an operator before it needs no parentheses for its rank.
    simp only [Bool.or_eq_false_iff, decide_eq_false_iff_not] at bare
    omega
  | @binary op left right _ _ ihLeft ihRight =>
    have bounds := op.precedence_bounds
    have readsLeft : ∃ count, ReadsAs line EndsWords
        (wrap (binaryRank op < rank left) (exprMarks left))
        (.joined op.precedence count left.renamed) :=
      (ihLeft (noField.part .left)).wrapJoined (by omega) fun bare => by
        simpa [binaryRank_lt_rank] using bare
    -- An equally tight operand on the right belongs to no chain on the left.
    have readsRight : ∃ count, ReadsAs line EndsWords
        (wrap (binaryRank op ≤ rank right) (exprMarks right))
        (.joined (op.precedence + 1) count right.renamed) :=
      (ihRight (noField.part .right)).wrapJoined (by omega) fun bare => by
        simpa [binaryRank_le_rank] using bare
    obtain ⟨count, readsLeft⟩ := readsLeft
    obtain ⟨_, readsRight⟩ := readsRight
    exact ⟨count + 1, readsLeft.binary readsRight⟩
  -- Only the condition can be in parentheses; both other parts are whole expressions.
  | @ternary condition yes no _ _ _ ihCondition ihYes ihNo =>
    have readsCondition : ∃ count, ReadsAs line EndsWords
        (wrap (ternaryRank ≤ rank condition) (exprMarks condition))
        (.joined 1 count condition.renamed) :=
      (ihCondition (noField.part .condition)).wrapJoined (by decide) fun bare => by
        simpa only [ternaryRank_le_rank, decide_eq_false_iff_not, Nat.not_lt] using bare
    obtain ⟨_, readsCondition⟩ := readsCondition
    have readsYes := (ihYes (noField.part .yes)).expression
    have readsNo := (ihNo (noField.part .no)).expression
    exact ⟨0, readsCondition.ternary readsYes readsNo⟩
  | @construct type arguments _ ih =>
    exact construct_readsBack type fun e member => ih e member (noField.part (.argument member))
  | call isName free untyped _ ih =>
    exact call_readsBack isName free untyped fun e member =>
      ih e member (noField.part (.argument member))
  | @field object name _ isName free ih =>
    have reads := ih (noField.part .object)
    -- The point of the field stands behind no integer.
    have noInteger : ∀ value, object ≠ .int value := by
      rintro value rfl
      exact noField value name .self
    refine ⟨0, .field isName free (reads.wrapSuffixed (fun bare => ?_) fun bare after ends => ?_)⟩
    · simpa using bare
    · exact follows_of_endsRun (by simpa using bare) noInteger ends
  | index _ _ ihObject ihPosition =>
    have readsObject := ihObject (noField.part .indexed)
    have readsPosition := (ihPosition (noField.part .position)).expression
    refine ⟨0, (readsObject.wrapSuffixed (fun bare => ?_) fun _ _ => ?_).index readsPosition⟩
    · simpa using bare
    · exact follows_of_endsWords _

/-- The words of a vertex stage that does nothing but assign to a name what words stand for. -/
def stageWords (line : Nat) (name : String) (words rest : List Token) : List Token :=
  Grammar.word "vertex" line :: sign .leftBrace line :: Grammar.word name line ::
    sign .assign line :: (words ++ sign .semicolon line :: sign .rightBrace line :: rest)

/-- The words of a stage are followed by any others. -/
theorem stageWords_append (line : Nat) (name : String) (words rest : List Token) :
    stageWords line name words [] ++ rest = stageWords line name words rest := by
  -- The words behind the stage stand at its end.
  simp [stageWords]

/-- An assignment to a name is all that the stage holds. -/
theorem stage_spans {name : String} {value : Expr} {room : Nat} {words : List Token}
    (free : isReserved name = false) (untyped : DataType.ofKeyword? name = none)
    (spans : ∀ rest, (ExprPhrase.expression value).Spans room (words ++ rest) rest) (rest : List Token) :
    PlainSpan (room + 2) (.stage .vertex [.assign (.variable name) .set value] line)
      (stageWords line name words rest) rest := by
  -- The target is an operand alone, which is an expression at every level.
  have target : ∀ rest, (ExprPhrase.expression (.variable name)).Spans (room + 1)
      (Grammar.word name line :: rest) rest := by
    intro rest
    have operand : (joined 9 0 (.variable name)).Spans room (Grammar.word name line :: rest) rest :=
      .single (.unsigned (.bare (.named free untyped)))
    exact .plain (operand.looser (by decide))
  have assigned : ∀ rest, (BodyPhrase.statement (.assign (.variable name) .set value)).Spans
      (room + 1) (Grammar.word name line :: sign .assign line ::
        (words ++ sign .semicolon line :: rest)) rest :=
    fun rest => .assign (target _) rfl (spans _).step
  -- Around the assignment there are one block and one stage.
  exact .stage (.block (.nextInBlock (assigned _) .endBlock))

/-- A vertex stage that assigns a text to a name is cut into the words of the text and its own. -/
theorem stage_cuts {text : List Char} {words : List Token} {name : String} (isName : IsName name)
    (cuts : ∀ after, EndsWords after → Cuts line (text ++ after) words after) :
    Cuts line ("vertex \x7b ".toList ++ name.toList ++ " = ".toList ++ text ++ "; \x7d".toList)
      (stageWords line name words []) [] := by
  -- Blanks end every symbol and every word.
  have blank : ∀ rest, EndsSymbol (' ' :: rest) := by simp [EndsSymbol]
  have keyword : IsName "vertex" := isName_spelling .vertex
  -- From the closing brace to the front, every word is cut off what is already cut.
  have atBrace : Cuts line ("\x7d".toList ++ []) _ [] :=
    .sign .rightBrace (.inr (.inr (by simp [EndsSymbol]))) .none
  have atSemicolon := Cuts.sign .semicolon (.inr (.inr (blank _))) atBrace.blank
  have atText := (cuts _ (endsWords_sign (by decide) _)).append atSemicolon
  have atAssign := Cuts.sign .assign (.inr (.inr (blank _))) atText.blank
  have atName := Cuts.next (next_name isName (endsWords_blank _).run) rfl atAssign.blank
  have atOpen := Cuts.sign .leftBrace (.inr (.inr (blank _))) atName.blank
  have atFront := Cuts.next (next_name keyword (endsWords_blank _).run) rfl atOpen.blank
  simpa [Symbol.spelling, stageWords] using atFront

/-- A source of a vertex stage that assigns a text is cut into the words of the stage. -/
theorem tokenize_stage {text : List Char} {words : List Token}
    (cuts : ∀ after, EndsWords after → Cuts 1 (text ++ after) words after) :
    tokenize ("vertex \x7b x = " ++ String.ofList text ++ "; \x7d") =
      .ok (stageWords 1 "x" words [⟨.endOfFile, 1⟩]) := by
  -- The words in front of the text, the text and its end are cut one after the other.
  have isName : IsName "x" := ⟨⟨_, _, rfl, rfl⟩, List.all_eq_true.mp rfl, by decide, by decide⟩
  rw [← stageWords_append]
  exact tokenize_eq_ok (by simpa using stage_cuts isName cuts)

/-- Under any define set, the vertex stage that assigns a text is read as a program of that stage. -/
theorem parse_stage {text : List Char} {words : List Token} {value : Expr} {room : Nat}
    (cuts : ∀ after, EndsWords after → Cuts 1 (text ++ after) words after)
    (spans : ∀ rest, (ExprPhrase.expression value).Spans room (words ++ rest) rest)
    (name : String) (defines : Defines) :
    let whole := Program.parse name defines ("vertex \x7b x = " ++ String.ofList text ++ "; \x7d")
    whole = .ok { Program.empty name defines with
        vertex := some [.assign (.variable "x") .set value] } ∨
      ∃ line, whole = .error (.grammar ⟨line, .tooDeep⟩) := by
  -- The words of the stage are those of the text with fixed ones around them.
  have stage : PlainSpan (room + 2) (.stage .vertex [.assign (.variable "x") .set value] 1) _ _ :=
    stage_spans rfl rfl spans [⟨.endOfFile, 1⟩]
  dsimp only
  rw [parse_eq_ofTokens (tokenize_stage cuts), ofTokens_eq]
  -- The stage is the whole source, or it is nested too deeply for the room there is.
  rcases sourceItems_single stage maxNesting with whole | ⟨place, tooDeep⟩
  · left
    rw [whole]
    rfl
  · right
    refine ⟨place, ?_⟩
    rw [tooDeep]
    rfl

/-- A stage that assigns a text is read whenever what it assigns is not nested too deeply. -/
theorem parse_stage_eq_ok {text : List Char} {words : List Token} {value : Expr} {room : Nat}
    (cuts : ∀ after, EndsWords after → Cuts 1 (text ++ after) words after)
    (spans : ∀ rest, (ExprPhrase.expression value).Spans room (words ++ rest) rest)
    (fits : room + 2 ≤ maxNesting) (name : String) (defines : Defines) :
    Program.parse name defines ("vertex \x7b x = " ++ String.ofList text ++ "; \x7d") =
      .ok { Program.empty name defines with
        vertex := some [.assign (.variable "x") .set value] } := by
  -- The stage is the only part of the source, and it fits within the levels.
  have stage : PlainSpan (room + 2) (.stage .vertex [.assign (.variable "x") .set value] 1) _ _ :=
    stage_spans rfl rfl spans [⟨.endOfFile, 1⟩]
  rw [parse_eq_ofTokens (tokenize_stage cuts), ofTokens_eq,
    sourceItems_complete (.next (.plain (stage.mono fits)) .ended)]
  rfl

/--
Writing and reading give expressions back, with the names that their calls have in GLSL.

Wherever the text of an expression stands, it is cut into the same words.
These are read as the renamed expression, unless they are nested too deeply where they stand.
-/
theorem parse_render {name source : String} {defines : Defines} {program : Program} {e : Expr}
    (parsed : Program.parse name defines source = .ok program) (mentioned : program.Mentions e)
    (noField : e.NoIntegerField) :
    (∀ line, ∃ words,
      (∀ after, EndsWords after →
        Cuts line ((render (exprMarks e)).toList ++ after) words after) ∧
      ∀ room rest, EndsExpression rest →
        Source.expression room (words ++ rest) = .ok (e.renamed, rest) ∨
          IsTooDeep (Source.expression room (words ++ rest))) ∧
    ∀ name' defines',
      let whole := Program.parse name' defines'
        ("vertex \x7b x = " ++ render (exprMarks e) ++ "; \x7d")
      whole = .ok { Program.empty name' defines' with
          vertex := some [.assign (.variable "x") .set e.renamed] } ∨
        ∃ line, whole = .error (.grammar ⟨line, .tooDeep⟩) := by
  have valid := valid_of_parse parsed mentioned
  constructor
  · intro line
    obtain ⟨words, wide, -, cuts, spans⟩ := (@readsBack line e valid noField).expression
    refine ⟨words, cuts, fun room rest ends => ?_⟩
    -- Within enough levels the words are read as they should be; fewer can only cut this short.
    have whole := expression_complete ((spans rest).mono (Nat.le_max_right room wide)) ends
    rcases expression_narrows (Nat.le_max_left room wide) (words ++ rest) with same | tooDeep
    · exact .inl (same.trans whole)
    · exact .inr tooDeep
  · -- In a stage of its own, the text stands on the first line.
    intro name' defines'
    obtain ⟨words, wide, -, cuts, spans⟩ := (@readsBack 1 e valid noField).expression
    have stage := parse_stage cuts spans name' defines'
    simpa [chars] using stage

/-- A difference with a sampled texture keeps its parentheses and is read back. -/
theorem parse_render_sample :
    let call : Expr := .call "sample" [.variable "map", .variable "uv"]
    let value : Expr := .binary .subtract (.int 1) (.binary .subtract (.int 2) (.field call "r"))
    let program : Program := { Program.empty "sampled" .empty with
      vertex := some [.assign (.variable "y") .set value] }
    let written := Program.parse "sampled" .empty "vertex \x7b x = 1-(2-texture(map, uv).r); \x7d"
    Program.parse "sampled" .empty "vertex \x7b y = 1 - (2 - sample(map, uv).r); \x7d" = .ok program ∧
      program.Mentions value ∧ value.NoIntegerField ∧
      (written = .ok { Program.empty "sampled" .empty with
          vertex := some [.assign (.variable "x") .set value.renamed] } ∨
        ∃ line, written = .error (.grammar ⟨line, .tooDeep⟩)) := by
  -- The source is closed, so that it is parsed by computation; fields are looked for by cases.
  dsimp only
  have parsed : Program.parse "sampled" .empty "vertex \x7b y = 1 - (2 - sample(map, uv).r); \x7d" =
    .ok _ := rfl
  have noField : (Expr.binary .subtract (.int 1) (.binary .subtract (.int 2)
      (.field (.call "sample" [.variable "map", .variable "uv"]) "r"))).NoIntegerField := by
    intro number name within
    cases within with
    | left inside => cases inside
    | right inside =>
      cases inside with
      | left inside => cases inside
      | right inside =>
        -- The only field is one of the call, whose arguments are names.
        cases inside with
        | object inside =>
          cases inside with
          | argument member inside =>
            rcases List.mem_pair.mp member with rfl | rfl <;> cases inside
  refine ⟨parsed, ?_, noField, ?_⟩
  · exact ⟨.vertex, _, _, _, rfl, .head _, .value, .self⟩
  · exact (parse_render parsed ⟨.vertex, _, _, _, rfl, .head _, .value, .self⟩ noField).2 "sampled" .empty

end Glsl

end Shading

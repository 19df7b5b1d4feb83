import Shading.Proofs.Glsl.Fusion
import Shading.Proofs.Glsl.Shielded

/-! Written texts as they would stand in a source, from which they are read back. -/

namespace Shading.Glsl

open Cursor Grammar ExprPhrase

/--
A written text as it would stand in a source.

It stands on one line, no field is taken of an integer, and a block in a block becomes a region.
-/
def asSource : List Char → List Char
  | [] => []
  | '.' :: rest => if rest.head?.any startsName then "[0].".toList ++ asSource rest
    else '.' :: asSource rest
  | '\n' :: rest => if rest.head? = some '\x7b' then " ifdef on ".toList ++ asSource rest
    else ' ' :: asSource rest
  | c :: rest => c :: asSource rest

/-- Characters that stand in a source as they are written. -/
def IsPlain (run : List Char) : Prop :=
  ∀ c ∈ run, c ≠ '.' ∧ c ≠ '\n'

variable {run rest after : List Char} {marks marks' : List Mark}

/-- Characters that stand as they are written do so in front of any others. -/
theorem asSource_plain (plain : IsPlain run) (rest : List Char) :
    asSource (run ++ rest) = run ++ asSource rest := by
  induction run with
  | nil => rfl
  | cons c run ih =>
    obtain ⟨⟨noPoint, noFeed⟩, others⟩ := List.forall_mem_cons.mp plain
    rw [List.cons_append, List.cons_append, ← ih others]
    -- Only a point and the end of a line do not stand as they are.
    conv => lhs; unfold asSource
    split <;> simp_all

/-- What names and numbers are made of stands as it is written. -/
theorem isPlain_of_continues (continues : ∀ c ∈ run, continuesName c = true) : IsPlain run := by
  -- Neither a point nor a line feed continues a name.
  refine fun c member => ⟨?_, ?_⟩ <;> rintro rfl
  · exact absurd (continues _ member) (by decide)
  · exact absurd (continues _ member) (by decide)

/-- Symbols other than the point stand as they are written. -/
theorem isPlain_symbol {s : Symbol} (noPoint : s ≠ .dot) : IsPlain s.spelling.toList := by
  -- The point is left out, and no other symbol contains it or a line feed.
  have all : s.spelling.toList.all (fun c => c != '.' && c != '\n') = true := by
    cases s <;> first
      | exact absurd rfl noPoint
      | rfl
  intro c member
  simpa using List.all_eq_true.mp all c member

/-- A name stands as it is written. -/
theorem isPlain_name {name : String} (isName : IsName name) : IsPlain name.toList :=
  -- The characters of a name are plain.
  isPlain_of_continues isName.continues

/-- Marks stand in a source as others do, where no name follows. -/
def StandsAs (marks marks' : List Mark) : Prop :=
  ∀ after, EndsRun after → asSource (chars marks ++ after) = chars marks' ++ asSource after

/-- The end of a line stands as a blank, or as the start of a region in front of a block. -/
theorem asSource_newline (rest : List Char) : asSource ('\n' :: rest) =
    if rest.head? = some '\x7b' then " ifdef on ".toList ++ asSource rest
    else ' ' :: asSource rest := by
  -- The character in front decides which case of the definition applies.
  conv => lhs; unfold asSource
  rfl

/-- A point that is followed by no name stands as it is written. -/
theorem asSource_point (noName : ∀ c ∈ rest.head?, startsName c = false) :
    asSource ('.' :: rest) = '.' :: asSource rest := by
  -- Without a name behind it, the point is no field.
  conv => lhs; unfold asSource
  cases rest with
  | nil => rfl
  | cons c rest => simp [noName c rfl]

/-- A field is taken of a first element. -/
theorem asSource_field {name : String} (isName : IsName name) (after : List Char) :
    asSource ('.' :: (name.toList ++ after)) =
      "[0].".toList ++ (name.toList ++ asSource after) := by
  -- The first character of the name decides.
  obtain ⟨c, rest, same, starts⟩ := isName.starts
  rw [← asSource_plain (isPlain_name isName), same]
  conv => lhs; unfold asSource
  simp [starts]

/-- What starts no name or number does not start a name. -/
theorem noName_of_endsRun (ends : EndsRun after) : ∀ c ∈ after.head?, startsName c = false := by
  -- What starts a name would also continue the run that ends here.
  intro c first
  rw [← Bool.not_eq_true]
  intro starts
  have continues := continues_of_startsName starts
  rw [ends c first] at continues
  cases continues

namespace StandsAs

/-- Marks of characters that stand as they are written do so. -/
theorem plain {text : String} (isPlain : IsPlain text.toList) :
    StandsAs [.token text] [.token text] := by
  -- Nothing in the token is changed, and there is nothing else.
  intro after _
  simpa using asSource_plain isPlain after

/-- Marks in parentheses stand as those within do. -/
theorem wrap (stands : StandsAs marks marks') (needed : Bool) :
    StandsAs (wrap needed marks) (wrap needed marks') := by
  cases needed with
  | false => exact stands
  | true =>
    intro after _
    -- Behind the marks there is a parenthesis, which continues no name.
    have opens := asSource_plain (isPlain_symbol (s := .leftParen) (by decide))
      (chars marks ++ ')' :: after)
    have closes := asSource_plain (isPlain_symbol (s := .rightParen) (by decide)) after
    have inner := stands (')' :: after) (endsRun_sign .rightParen after)
    simp only [Symbol.spelling] at opens closes
    simp_all [Glsl.wrap]

end StandsAs

/-- A symbol in front of others stands as it is written. -/
theorem asSource_sign {s : Symbol} (noPoint : s ≠ .dot) (rest : List Char) :
    asSource (s.spelling.toList ++ rest) = s.spelling.toList ++ asSource rest :=
  -- Its characters are plain.
  asSource_plain (isPlain_symbol noPoint) rest

/-- A blank stands as it is written. -/
theorem asSource_blank (rest : List Char) : asSource (' ' :: rest) = ' ' :: asSource rest := by
  -- A blank is neither a point nor a line feed.
  have plain : IsPlain [' '] := by simp [IsPlain]
  exact asSource_plain plain rest

/-- The arguments of a call stand as each of them does. -/
theorem arguments_standAs {es : List Expr}
    (each : ∀ e ∈ es, StandsAs (exprMarks e) (exprMarks e.shielded)) (after : List Char) :
    asSource (chars (argumentMarks es ++ [.token ")"]) ++ after) =
        chars (argumentMarks (Expr.shieldedAll es) ++ [.token ")"]) ++ asSource after ∧
      asSource (chars (afterArgument es) ++ after) =
        chars (afterArgument (Expr.shieldedAll es)) ++ asSource after := by
  -- Both statements go together: behind an argument there is a comma with others, or the
  -- parenthesis.
  have closes : asSource (')' :: after) = ')' :: asSource after :=
    asSource_sign (s := .rightParen) (by decide) after
  induction es with
  | nil => exact ⟨by simpa [argumentMarks, Expr.shieldedAll] using closes,
      by simpa [afterArgument, Expr.shieldedAll] using closes⟩
  | cons e es ih =>
    obtain ⟨first, more⟩ := List.forall_mem_cons.mp each
    have whole : asSource (chars (argumentMarks (e :: es) ++ [.token ")"]) ++ after) =
        chars (argumentMarks (Expr.shieldedAll (e :: es)) ++ [.token ")"]) ++ asSource after := by
      rw [Expr.shieldedAll, argumentMarks_cons, argumentMarks_cons, chars_append, chars_append,
        List.append_assoc, List.append_assoc, first _ (endsWords_afterArgument es after).run,
        (ih more).2]
    -- Behind another argument, the same marks stand behind a comma.
    refine ⟨whole, ?_⟩
    have behind : ∀ (e : Expr) (es : List Expr) (rest : List Char),
        chars (afterArgument (e :: es)) ++ rest =
          Symbol.comma.spelling.toList ++
            ' ' :: (chars (argumentMarks (e :: es) ++ [.token ")"]) ++ rest) := by
      intro e es rest
      simp [afterArgument, Symbol.spelling]
    rw [Expr.shieldedAll] at whole ⊢
    rw [behind, behind, asSource_sign (by decide), asSource_blank, whole]

/-- An operator between two operands stands as it is written. -/
theorem binary_standsAs (op : BinaryOp) {left left' right right' : List Mark}
    (standsLeft : StandsAs left left') (standsRight : StandsAs right right') :
    StandsAs (left ++ .token op.symbol.spelling :: right)
      (left' ++ .token op.symbol.spelling :: right') := by
  -- No operator is a point, and each operand is followed by what ends it.
  intro after ends
  have noPoint : op.symbol ≠ .dot := by cases op <;> decide
  have behind := asSource_sign noPoint (chars right ++ after)
  rw [standsRight after ends] at behind
  simp only [chars_append, chars_token, List.append_assoc]
  rw [standsLeft _ (endsRun_sign op.symbol _), behind]

/-- What is called stands by its name. -/
theorem isPlain_callee {name : String} (isName : IsName name) : IsPlain (callee name).toList := by
  -- The names that are changed are as plain as all others.
  unfold callee
  split
  · exact isPlain_of_continues (List.all_eq_true.mp rfl)
  · split
    · exact isPlain_of_continues (List.all_eq_true.mp rfl)
    · exact isPlain_name isName

/-- A call stands with its arguments. -/
theorem call_standsAs {name : String} {es : List Expr} (isName : IsName name)
    (each : ∀ e ∈ es, StandsAs (exprMarks e) (exprMarks e.shielded)) :
    StandsAs (exprMarks (.call name es)) (exprMarks (.call name (Expr.shieldedAll es))) := by
  intro after _
  -- The parenthesis keeps the name apart from the arguments, in both texts alike.
  have opens := asSource_sign (s := .leftParen) (by decide)
    (chars (argumentMarks es ++ [.token ")"]) ++ after)
  rw [(arguments_standAs each after).1] at opens
  have whole := asSource_plain (isPlain_callee isName)
    (Symbol.leftParen.spelling.toList ++ (chars (argumentMarks es ++ [.token ")"]) ++ after))
  rw [opens] at whole
  simpa [exprMarks, Symbol.spelling] using whole

/-- A field stands as one of a first element. -/
theorem field_standsAs {object : Expr} {name : String} (isName : IsName name)
    (stands : StandsAs (exprMarks object) (exprMarks object.shielded)) :
    StandsAs (exprMarks (.field object name)) (exprMarks (Expr.field object name).shielded) := by
  intro after _
  have point : EndsRun ('.' :: (name.toList ++ after)) := endsRun_sign .dot _
  -- The point behind the object ends it; the name behind the point makes it a field.
  have inner := stands.wrap (suffixRank < rank object) _ point
  rw [asSource_field isName] at inner
  have shielded : exprMarks (Expr.field object name).shielded =
      wrap (suffixRank < rank object) (exprMarks object.shielded) ++
        [.token "[", .token "0", .token "]", .token ".", .token name] := by
    -- An index is an object that needs no parentheses.
    have bare : wrap (suffixRank < rank (.index object.shielded (.int 0))) =
        fun marks => marks := rfl
    have zero : (0 : Int).repr = "0" := rfl
    simp [Expr.shielded, exprMarks, rank_shielded, bare, zero]
  rw [shielded]
  simpa [exprMarks] using inner

/-- An index stands with its object and its position. -/
theorem index_standsAs {object position : Expr}
    (standsObject : StandsAs (exprMarks object) (exprMarks object.shielded))
    (standsPosition : StandsAs (exprMarks position) (exprMarks position.shielded)) :
    StandsAs (exprMarks (.index object position))
      (exprMarks (Expr.index object position).shielded) := by
  intro after _
  -- Each bracket ends what is in front of it, so that the parts are replaced one by one.
  have closes := asSource_sign (s := .rightBracket) (by decide) after
  have inner := standsPosition _ (endsRun_sign .rightBracket after)
  have opens := asSource_sign (s := .leftBracket) (by decide)
    (chars (exprMarks position) ++ (Symbol.rightBracket.spelling.toList ++ after))
  have whole := standsObject.wrap (suffixRank < rank object) _ (endsRun_sign .leftBracket
    (chars (exprMarks position) ++ (Symbol.rightBracket.spelling.toList ++ after)))
  rw [opens, inner, closes] at whole
  simpa [Expr.shielded, exprMarks, rank_shielded, Symbol.spelling] using whole

/-- Every valid expression stands in a source with its fields kept apart. -/
theorem exprMarks_standAs {e : Expr} (valid : e.Valid) :
    StandsAs (exprMarks e) (exprMarks e.shielded) := by
  -- By induction on the expression; each of its parts is followed by a character that ends it.
  induction valid with
  | @int value =>
    refine .plain (isPlain_of_continues fun c member => continues_of_isDigit ?_)
    exact isDigit_toDigits value c (by rwa [← Nat.toList_repr])
  | @float value finite unsigned =>
    obtain ⟨whole, fraction, same, -, digits, digits', -⟩ := floatLiteral_parts finite unsigned
    have plain : ∀ {ds : List Char}, (∀ c ∈ ds, c.isDigit = true) → IsPlain ds :=
      fun all => isPlain_of_continues fun c member => continues_of_isDigit (all c member)
    intro after ends
    -- Behind the point there are digits, or what ends the number.
    have noName : ∀ c ∈ (fraction ++ after).head?, startsName c = false := by
      cases fraction with
      | nil => exact noName_of_endsRun ends
      | cons d fraction =>
        intro c first
        exact Option.some.inj first ▸ not_startsName_of_isDigit (digits' d (by simp))
    simp only [Expr.shielded, exprMarks, chars_token, chars_nil, same, String.toList_ofList,
      List.append_nil, List.append_assoc, List.cons_append]
    rw [asSource_plain (plain digits), asSource_point noName, asSource_plain (plain digits')]
  | @bool value =>
    refine .plain (isPlain_of_continues ?_)
    cases value <;> exact List.all_eq_true.mp rfl
  | named isName => exact .plain (isPlain_name isName)
  | @unary op operand _ ih =>
    intro after ends
    have noPoint : op.symbol ≠ .dot := by cases op <;> decide
    simp only [Expr.shielded, exprMarks, rank_shielded, isNegation_shielded, chars_token,
      List.append_assoc]
    rw [asSource_sign noPoint, ih.wrap _ after ends]
  | @binary op left right _ _ ihLeft ihRight =>
    simp only [Expr.shielded, exprMarks, rank_shielded]
    exact binary_standsAs op (ihLeft.wrap _) (ihRight.wrap _)
  | @ternary condition yes no _ _ _ ihCondition ihYes ihNo =>
    intro after ends
    -- Blanks stand on both sides of the two symbols, which stand as they are.
    have blank : ∀ rest, EndsRun (' ' :: rest) := fun rest => (endsWords_blank rest).run
    have question : ∀ rest,
        asSource (' ' :: '?' :: ' ' :: rest) = ' ' :: '?' :: ' ' :: asSource rest := by
      have plain : IsPlain [' ', '?', ' '] := by simp [IsPlain]
      exact asSource_plain plain
    have colon : ∀ rest,
        asSource (' ' :: ':' :: ' ' :: rest) = ' ' :: ':' :: ' ' :: asSource rest := by
      have plain : IsPlain [' ', ':', ' '] := by simp [IsPlain]
      exact asSource_plain plain
    have behind := ihNo after ends
    simp only [Expr.shielded, exprMarks, rank_shielded, chars_append, chars_space, chars_token,
      List.append_assoc, List.cons_append]
    -- From the condition to the last branch, each part is followed by what ends it.
    rw [ihCondition.wrap _ _ (blank _)]
    simp only [String.reduceToList, List.cons_append, List.nil_append]
    rw [question, ihYes _ (blank _), colon, behind]
  | @construct type _ _ ih => exact call_standsAs (isName_keyword type) ih
  | call isName _ _ _ ih => exact call_standsAs isName ih
  | field _ isName _ ih => exact field_standsAs isName ih
  | index _ _ ihObject ihPosition => exact index_standsAs ihObject ihPosition

end Shading.Glsl

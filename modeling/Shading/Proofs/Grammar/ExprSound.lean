import Shading.Proofs.Grammar.Expr

/-! Whatever the readers of expressions accept is an expression of the grammar. -/

namespace Shading.Grammar

open Source ExprPhrase

/-- Whatever a parser reads spans the words that it takes. -/
def Sound {α : Type} (parser : Parser α) (spans : α → List Token → List Token → Prop) : Prop :=
  ∀ ⦃tokens value rest⦄, parser tokens = .ok (value, rest) → spans value tokens rest

variable {room : Nat} {deeper nested : Parser Expr}

/-- The arguments after the first one are read up to the parenthesis that ends them. -/
theorem moreArguments_sound (sound : Sound nested fun e => (expression e).Spans room)
    (limit : Nat) : Sound (Source.moreArguments nested limit) fun es =>
      (ExprPhrase.moreArguments es).Spans room := by
  intro tokens es rest read
  -- Every comma is followed by an argument, and every argument by what is left of the list.
  induction limit generalizing tokens es with
  | zero =>
    -- Without a further step, only the parenthesis at the end is accepted.
    simp only [Source.moreArguments, bind_eq_ok, expect_eq_ok, pure_eq_ok, Prod.mk.injEq] at read
    obtain ⟨_, ⟨line, rfl⟩, rfl, rfl⟩ := read
    exact .endArguments
  | succ limit ih =>
    simp only [Source.moreArguments] at read
    split at read
    · rename_i comma
      obtain ⟨line, tokens, rfl⟩ := startsWith_iff.mp comma
      simp only [bind_eq_ok, Prod.exists, List.tail_cons, pure_eq_ok, Prod.mk.injEq] at read
      obtain ⟨first, afterFirst, readFirst, more, _, readMore, rfl, rfl⟩ := read
      exact .nextArgument (sound readFirst) (ih readMore)
    · -- Anything but a comma has to be the parenthesis at the end.
      simp only [bind_eq_ok, expect_eq_ok, pure_eq_ok, Prod.mk.injEq] at read
      obtain ⟨_, ⟨line, rfl⟩, rfl, rfl⟩ := read
      exact .endArguments

/-- The arguments of a call are read up to the parenthesis that ends them. -/
theorem arguments_sound (sound : Sound nested fun e => (expression e).Spans room) :
    Sound (Source.arguments nested) fun es => (ExprPhrase.arguments es).Spans room := by
  intro tokens es rest read
  simp only [Source.arguments] at read
  split at read
  · -- With the parenthesis directly behind, there are no arguments.
    rename_i closed
    obtain ⟨line, tokens, rfl⟩ := startsWith_iff.mp closed
    simp only [List.tail_cons, Except.ok.injEq, Prod.mk.injEq] at read
    obtain ⟨rfl, rfl⟩ := read
    exact .noArguments
  · -- Otherwise there is at least one argument.
    simp only [bind_eq_ok, Prod.exists, pure_eq_ok, Prod.mk.injEq] at read
    obtain ⟨first, afterFirst, readFirst, more, _, readMore, rfl, rfl⟩ := read
    exact .firstArgument (sound readFirst) (moreArguments_sound sound _ readMore)

/-- An expression with some of its suffixes as it is read, or the keyword of a type being called. -/
inductive ObjectRead (room : Nat) : Expr → List Token → List Token → Prop
  | suffixed {e tokens rest} :
    (suffixed e).Spans room tokens rest → ObjectRead room e tokens rest
  | called {type : DataType} {line line' rest} :
    ObjectRead room (.variable type.keyword)
      (word type.keyword line :: sign .leftParen line' :: rest) (sign .leftParen line' :: rest)

/-- A primary expression is read, or the keyword of a type that is called. -/
theorem primary_sound (sound : Sound nested fun e => (expression e).Spans room) :
    Sound (Source.primary nested) (ObjectRead room) := by
  intro tokens e rest read
  unfold Source.primary at read
  split at read
  · -- The literals are read as they stand.
    obtain ⟨rfl, rfl⟩ := Prod.mk.inj (Except.ok.inj read)
    exact .suffixed (.bare .int)
  · obtain ⟨rfl, rfl⟩ := Prod.mk.inj (Except.ok.inj read)
    exact .suffixed (.bare .float)
  · obtain ⟨rfl, rfl⟩ := Prod.mk.inj (Except.ok.inj read)
    exact .suffixed (.bare .bool)
  · split at read
    · simp [unexpected] at read
    · rename_i name line rest accepted
      obtain ⟨rfl, rfl⟩ := Prod.mk.inj (Except.ok.inj read)
      simp only [Bool.or_eq_true, Bool.and_eq_true, Bool.not_eq_true', not_or, not_and,
        Bool.not_eq_false, Bool.not_eq_true] at accepted
      obtain ⟨free, called⟩ := accepted
      cases named : DataType.ofKeyword? name with
      | none => exact .suffixed (.bare (.named free named))
      | some type =>
        -- The keyword of a type is let through only where it is called.
        obtain ⟨line', after, rfl⟩ := startsWith_iff.mp (called (by simp [named]))
        rw [DataType.ofKeyword?_eq_some.mp named]
        exact .called
  · -- The closing parenthesis has to follow the expression that is nested.
    simp only [bind_eq_ok, expect_eq_ok, Prod.exists, pure_eq_ok, Prod.mk.injEq] at read
    obtain ⟨inner, _, readInner, _, ⟨line, rfl⟩, rfl, rfl⟩ := read
    exact .suffixed (.bare (.parenthesised (sound readInner)))
  · simp [unexpected] at read

/-- The suffixes of an expression are read as long as there are any. -/
theorem suffixes_sound (sound : Sound nested fun e => (expression e).Spans room)
    {limit : Nat} {object e : Expr} {start tokens rest : List Token}
    (objectRead : ObjectRead room object start tokens) (enough : tokens.length ≤ limit)
    (read : suffixes nested limit object tokens = .ok (e, rest)) :
    (suffixed e).Spans room start rest := by
  induction limit generalizing object tokens with
  | zero =>
    -- The limit is used up only when the words are, and then nothing called is left open.
    simp only [suffixes, Except.ok.injEq, Prod.mk.injEq] at read
    obtain ⟨rfl, rfl⟩ := read
    cases objectRead with
    | suffixed spans => exact spans
    | called => simp at enough
  | succ limit ih =>
    rcases tokens with _ | ⟨⟨lexeme, line⟩, after⟩
    -- The words are used up, which a keyword that is called would not allow.
    · cases objectRead with
      | suffixed spans =>
        obtain ⟨rfl, rfl⟩ := Prod.mk.inj (Except.ok.inj read)
        exact spans
    simp only [List.length_cons, Nat.add_le_add_iff_right] at enough
    simp only [suffixes, headToken_cons, List.tail_cons] at read
    split at read
    · -- A parenthesis calls a name, or the keyword of a type.
      split at read
      · simp only [bind_eq_ok, Prod.exists] at read
        obtain ⟨es, afterArguments, readArguments, readMore⟩ := read
        have arguments := arguments_sound sound readArguments
        have fewer := arguments.shorter
        cases objectRead with
        | suffixed spans => exact ih (.suffixed (.call spans arguments)) (by omega) readMore
        | called => exact ih (.suffixed (.construct arguments)) (by omega) readMore
      · simp [unexpected] at read
    · -- A point selects a field. The keyword of a type is followed by no point.
      simp only [bind_eq_ok, Prod.exists, name_eq_ok] at read
      obtain ⟨name, afterName, ⟨line', rfl, free⟩, readMore⟩ := read
      cases objectRead with
      | suffixed spans =>
        have fewer := Nat.le_of_succ_le enough
        exact ih (.suffixed (.field spans free)) fewer readMore
    · -- A bracket opens an index, behind which the suffixes go on.
      simp only [bind_eq_ok, Prod.exists, expect_eq_ok] at read
      obtain ⟨position, _, readPosition, afterIndex, ⟨line', rfl⟩, readMore⟩ := read
      have spansPosition := sound readPosition
      have fewer := spansPosition.shorter
      cases objectRead with
      | suffixed spans =>
        simp only [List.length_cons] at fewer
        exact ih (.suffixed (.index spans spansPosition)) (by omega) readMore
    · -- Whatever else follows ends the suffixes; a called keyword was followed by a parenthesis.
      rename_i notParen _ _
      obtain ⟨rfl, rfl⟩ := Prod.mk.inj (Except.ok.inj read)
      cases objectRead with
      | suffixed spans => exact spans
      | called => exact absurd rfl notParen

/-- An operand is read with the operators before it and the suffixes after it. -/
theorem unary_sound (sound : Sound nested fun e => (expression e).Spans room)
    (deeperSound : Sound deeper fun e tokens rest =>
      ∃ inner, room = inner + 1 ∧ (operand e).Spans inner tokens rest) :
    Sound (unary deeper nested) fun e => (operand e).Spans room := by
  intro tokens e rest read
  simp only [unary] at read
  split at read
  · -- An operator in front takes an operand of one level less.
    rename_i op signed
    obtain ⟨line, after, rfl⟩ := headUnary?_eq_some.mp signed
    simp only [bind_eq_ok, Prod.exists, List.tail_cons, pure_eq_ok, Prod.mk.injEq] at read
    obtain ⟨e, _, readOperand, rfl, rfl⟩ := read
    obtain ⟨inner, rfl, spans⟩ := deeperSound readOperand
    exact .signed spans
  · -- Without an operator it is a primary expression, and the suffixes go around it.
    simp only [bind_eq_ok, Prod.exists] at read
    obtain ⟨object, afterObject, readObject, readSuffixes⟩ := read
    exact .unsigned (suffixes_sound sound (primary_sound sound readObject) (Nat.le_refl _) readSuffixes)

/-- The operator that the words start with, if any, binds more loosely than a level. -/
def LooserHead (level : Nat) (tokens : List Token) : Prop :=
  ∀ op, headBinary? tokens = some op → op.precedence < level

/-- Operands joined on a level, up to an operator that binds more loosely. -/
def JoinedRead (room least : Nat) (e : Expr) (tokens rest : List Token) : Prop :=
  (∃ count, (joined least count e).Spans room tokens rest) ∧ LooserHead least rest

/-- A left operand goes on through all operators that bind tightly enough. -/
theorem chain_sound {tighter : Nat → Parser Expr} {least : Nat}
    (tighterSound : ∀ level, least ≤ level → level ≤ BinaryOp.levels →
      Sound (tighter (level + 1)) (JoinedRead room (level + 1)))
    {level count further : Nat} {left e : Expr} {start tokens rest : List Token}
    (spans : (joined level count left).Spans room start tokens) (loose : least ≤ level)
    (head : LooserHead (level + 1) tokens) (fits : count + further = room)
    (read : chain tighter least further left tokens = .ok (e, rest)) :
    JoinedRead room least e start rest := by
  -- The operator met is the loosest so far, so that what is on its left is joined on its level.
  fun_induction chain tighter least further left tokens generalizing level count with
  -- No operator follows, or one that is left to a caller of a looser level.
  | case1 further left tokens none =>
    obtain ⟨rfl, rfl⟩ := Prod.mk.inj (Except.ok.inj read)
    exact ⟨⟨count, spans.looser loose⟩, by simp [LooserHead, none]⟩
  | case2 further left tokens op met weak =>
    obtain ⟨rfl, rfl⟩ := Prod.mk.inj (Except.ok.inj read)
    exact ⟨⟨count, spans.looser loose⟩, by simp_all [LooserHead]⟩
  -- There was no room for this many operators.
  | case3 left tokens op met tight => simp [tooDeep] at read
  | case4 left tokens op met tight further ih =>
    -- The head is known to be looser than what was read, so its left operand is complete.
    have within := head op met
    obtain ⟨line, after, rfl⟩ := headBinary?_eq_some.mp met
    simp only [bind_eq_ok, Prod.exists, List.tail_cons] at read
    obtain ⟨right, afterRight, readRight, readMore⟩ := read
    obtain ⟨⟨count', spansRight⟩, headRight⟩ :=
      tighterSound op.precedence (by omega) op.precedence_bounds.2 readRight
    have joined := Spans.join (spans.looser (by omega)) spansRight (by omega)
    exact ih _ _ joined (by omega) headRight (by omega) readMore

/-- Operands are read as far as their operators bind at least as tightly as asked. -/
theorem climb_sound {operandReader : Parser Expr}
    (operandSound : Sound operandReader fun e => (operand e).Spans room) (levels : Nat) :
    ∀ {least}, least ≤ BinaryOp.levels + 1 → BinaryOp.levels + 1 ≤ least + levels →
      Sound (climb operandReader room levels least) (JoinedRead room least) := by
  induction levels with
  | zero =>
    -- Only operands remain to be climbed on the level behind the last one.
    intro least small large tokens e rest read
    obtain rfl : least = BinaryOp.levels + 1 := by omega
    exact ⟨⟨0, .single (operandSound read)⟩, fun op _ => Nat.lt_succ_of_le op.precedence_bounds.2⟩
  | succ levels ih =>
    intro least small large tokens e rest read
    simp only [climb, bind_eq_ok, Prod.exists] at read
    obtain ⟨left, afterLeft, readLeft, readChain⟩ := read
    -- The operands to the right of an operator are those of the levels above it.
    refine chain_sound (fun level loose tight => ih (by omega) (by omega))
      (.single (operandSound readLeft)) small (fun op _ => ?_) (Nat.zero_add room) readChain
    have := op.precedence_bounds
    omega

/-- Joined operands, or a choice between two expressions, are read. -/
theorem ternary_sound {operandReader : Parser Expr}
    (operandSound : Sound operandReader fun e => (operand e).Spans room)
    (sound : Sound nested fun e => (expression e).Spans room) :
    Sound (ternary room operandReader nested) fun e => (expression e).Spans (room + 1) := by
  intro tokens e rest read
  simp only [ternary, bind_eq_ok, Prod.exists] at read
  obtain ⟨condition, afterCondition, readCondition, read⟩ := read
  -- The tree of the condition is the whole expression, unless a question mark follows.
  obtain ⟨⟨count, spansCondition⟩, -⟩ :=
    climb_sound operandSound BinaryOp.levels (by decide) (by decide) readCondition
  split at read
  · rename_i question
    obtain ⟨line, afterQuestion, rfl⟩ := startsWith_iff.mp question
    simp only [bind_eq_ok, Prod.exists, expect_eq_ok, List.tail_cons, pure_eq_ok,
      Prod.mk.injEq] at read
    obtain ⟨yes, _, readYes, afterColon, ⟨line', rfl⟩, no, _, readNo, rfl, rfl⟩ := read
    -- The three parts span the words between the symbols.
    exact .ternary spansCondition (sound readYes) (sound readNo)
  · simp only [pure_eq_ok, Prod.mk.injEq] at read
    obtain ⟨rfl, rfl⟩ := read
    exact .plain spansCondition

/-- Nothing is read where there is no room for it. -/
theorem tooDeep_sound {α : Type} {spans : α → List Token → List Token → Prop} :
    Sound tooDeep spans := by
  -- The reader has nothing but a fault to give.
  intro tokens value rest read
  simp [tooDeep] at read

/-- What the readers of a number of levels accept is an expression, or an operand a level deeper. -/
theorem exprParsers_sound (room : Nat) :
    (Sound (exprParsers room).expression fun e => (expression e).Spans room) ∧
      Sound (exprParsers room).operand fun e tokens rest =>
        ∃ inner, room = inner + 1 ∧ (operand e).Spans inner tokens rest := by
  -- A level more is a choice between operands whose own parsers have the levels below.
  induction room with
  | zero => exact ⟨tooDeep_sound, tooDeep_sound⟩
  | succ room ih =>
    have operandSound := unary_sound ih.1 ih.2
    exact ⟨ternary_sound operandSound ih.1, fun _ _ _ read => ⟨room, rfl, operandSound read⟩⟩

/-- What is read as an expression is one. -/
theorem expression_sound (room : Nat) :
    Sound (Source.expression room) fun e => (expression e).Spans room :=
  -- Expressions and operands were dealt with together.
  (exprParsers_sound room).1

end Shading.Grammar

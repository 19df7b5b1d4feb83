import Shading.Proofs.Grammar.Descent
import Shading.Proofs.Grammar.Limits

/-! Climbing by precedence reads what the plain descent reads. -/

namespace Shading.Descent

open Source Grammar

variable {operand operand' nested nested' deeper deeper' : Parser Expr} {tokens rest : List Token}
  {room bound : Nat}

/-- Goes on from an operand through this many of the tightest levels, the tightest one first. -/
def continued (operand : Parser Expr) : Nat → Expr → Parser Expr
  | 0, left, tokens => .ok (left, tokens)
  | count + 1, left, tokens => do
    let (joined, rest) ← continued operand count left tokens
    loop (operatorsOf (BinaryOp.levels - count)) (layers operand count) rest.length joined rest

/-- All levels start with one operand, from which they go on. -/
theorem layers_eq_continued (operand : Parser Expr) (count : Nat) (tokens : List Token) :
    layers operand count tokens =
      operand tokens >>= fun (left, rest) => continued operand count left rest := by
  -- Each level is what the tighter ones read, and the loop of its own operators behind it.
  induction count with
  | zero =>
    simp only [layers, continued]
    cases operand tokens <;> rfl
  | succ count ih => simp only [layers, level, ih, bind_assoc, continued]

/-- No level goes on before an operator that binds more loosely than all of them. -/
theorem continued_stop {count least : Nat} (levels : least + count = BinaryOp.levels + 1)
    (looser : LooserHead least tokens) (left : Expr) :
    continued operand count left tokens = .ok (left, tokens) := by
  -- From the tightest level outwards, each loop stops at once.
  induction count generalizing least with
  | zero => rfl
  | succ count ih =>
    have looserStill : LooserHead (least + 1) tokens := fun op met =>
      Nat.lt_succ_of_lt (looser op met)
    simp only [continued, ih (by omega) looserStill, ok_bind]
    exact loop_stop (headAmong?_eq_none looser (by omega)) _ _

/--
An operator of one of the levels takes its right operand from the levels that bind tighter.

All levels then go on from both operands, as if they were a single one on the left.
-/
theorem continued_step (shortens : Shortens operand) {op : BinaryOp} {count least : Nat}
    (levels : least + count = BinaryOp.levels + 1) (tight : least ≤ op.precedence)
    (met : headBinary? tokens = some op) (left : Expr) :
    continued operand count left tokens =
      layers operand (BinaryOp.levels - op.precedence) tokens.tail >>= fun (right, rest) =>
        continued operand count (.binary op left right) rest := by
  have bounds := op.precedence_bounds
  -- From the level of the operator outwards: looser levels only go on from what it leaves.
  induction count generalizing least with
  | zero => omega
  | succ count ih =>
    rcases Nat.lt_or_ge least op.precedence with tighter | own
    · have inner : least + 1 + count = BinaryOp.levels + 1 := by omega
      simp only [continued, ih inner tighter, bind_assoc]
    · obtain rfl : least = op.precedence := by omega
      obtain rfl : count = BinaryOp.levels - op.precedence := by omega
      have place : BinaryOp.levels - (BinaryOp.levels - op.precedence) = op.precedence := by omega
      have looser : LooserHead (op.precedence + 1) tokens := fun other same => by
        rw [met] at same
        cases same
        exact Nat.lt_succ_self _
      have among : headAmong? (operatorsOf op.precedence) tokens = some op := by
        simp [headAmong?, met, mem_operatorsOf]
      have fewer := length_tail_lt among
      obtain ⟨limit, length⟩ : ∃ less, tokens.length = less + 1 := ⟨tokens.length - 1, by omega⟩
      -- Tighter levels have nothing to do before the operator, nor behind its right operand.
      simp only [continued, place]
      rw [continued_stop (by omega) looser, ok_bind]
      dsimp only
      rw [length]
      simp only [loop, among]
      refine bind_congr_ok rfl ?_
      rintro ⟨right, rest⟩ read
      have shorter := layers_shortens shortens _ read
      -- The right operand ends where no operator of a tighter level is next.
      have looserBehind : LooserHead (op.precedence + 1) rest :=
        layers_looserHead shortens (by omega) read
      dsimp only at shorter ⊢
      rw [continued_stop (by omega) looserBehind, ok_bind]
      exact loop_limit (layers_shortens shortens _) (by omega) (Nat.le_refl _) _

/-- A chain of operators is what the levels make of its left operand. -/
theorem chain_eq_continued (shortens : Shortens operand) {tighter : Nat → Parser Expr}
    {count least : Nat} (levels : least + count = BinaryOp.levels + 1)
    (same : ∀ op : BinaryOp, least ≤ op.precedence → ∀ words : List Token, words.length ≤ room →
      tighter (op.precedence + 1) words = layers operand (BinaryOp.levels - op.precedence) words)
    (enough : tokens.length ≤ room) {further : Nat} (fits : tokens.length ≤ further)
    (left : Expr) :
    chain tighter least further left tokens = continued operand count left tokens := by
  -- Each operator of the chain takes a word, so that they do not run out before the words do.
  fun_induction chain tighter least further left tokens with
  | case1 further left tokens none =>
    exact (continued_stop levels (fun op met => by simp [none] at met) left).symm
  | case2 further left tokens op met weak =>
    refine (continued_stop levels (fun other same => ?_) left).symm
    rw [met] at same
    cases same
    exact weak
  | case3 left tokens op met =>
    obtain rfl := List.length_eq_zero_iff.mp (Nat.le_zero.mp fits)
    cases met
  | case4 left tokens op met strong further ih =>
    have tight : least ≤ op.precedence := Nat.le_of_not_lt strong
    obtain ⟨line, after, rfl⟩ := headBinary?_eq_some.mp met
    simp only [List.length_cons] at enough fits
    rw [continued_step shortens levels tight met]
    refine bind_congr_ok (same op tight after (by omega)) ?_
    rintro ⟨right, rest⟩ read
    -- The right operand takes words, so that the limit suffices for the rest of the chain.
    have shorter := layers_shortens shortens _ ((same op tight after (by omega)).symm.trans read)
    simp only at shorter ⊢
    exact ih right rest (by omega) (by omega)

/-- Climbing reads the operands of the levels that bind at least as tightly as asked. -/
theorem climb_eq_layers (shortens : Shortens operand) (steps : Nat) :
    ∀ {least count : Nat} {tokens : List Token}, least + count = BinaryOp.levels + 1 →
      count ≤ steps → tokens.length ≤ room →
      climb operand room steps least tokens = layers operand count tokens := by
  -- By the number of steps, which is that of the levels left.
  induction steps with
  | zero =>
    intro least count tokens levels few enough
    obtain rfl : count = 0 := by omega
    rfl
  | succ steps ih =>
    intro least count tokens levels few enough
    rw [layers_eq_continued, climb]
    refine bind_congr_ok rfl ?_
    rintro ⟨left, rest⟩ read
    have shorter := shortens read
    dsimp only at shorter ⊢
    -- Right operands are read on tighter levels, of which there are fewer.
    refine chain_eq_continued shortens levels (fun op tight words short => ?_)
      (Nat.le_trans (Nat.le_of_lt shorter) enough) (by omega) left
    have bounds := op.precedence_bounds
    exact ih (by omega) (by omega) short

/-- Two readers agree on all words that are fewer than this. -/
def AgreeBelow (bound : Nat) (reader reader' : Parser Expr) : Prop :=
  ∀ tokens : List Token, tokens.length < bound → reader tokens = reader' tokens

section Agreement

variable (sound : Sound nested fun e => (ExprPhrase.expression e).Spans room)
  (agree : AgreeBelow bound nested nested')
include sound agree

/-- Further arguments are the same with readers that agree on the words within them. -/
theorem moreArguments_agree (limit : Nat) (enough : tokens.length ≤ bound) :
    moreArguments nested limit tokens = moreArguments nested' limit tokens := by
  -- By the limit, which goes down with the words that are left.
  induction limit generalizing tokens with
  | zero => rfl
  | succ limit ih =>
    simp only [moreArguments]
    split
    · rename_i comma
      obtain ⟨line, after, rfl⟩ := startsWith_iff.mp comma
      simp only [List.length_cons, List.tail_cons] at enough ⊢
      refine bind_congr_ok (agree after enough) ?_
      rintro ⟨first, rest⟩ read
      -- What was read took a word, and so did the comma: less is left for the others.
      have shorter := (sound read).shorter
      dsimp only at shorter ⊢
      rw [ih (by omega)]
    · rfl

/-- Arguments are the same with readers that agree on the words within them. -/
theorem arguments_agree (enough : tokens.length < bound) :
    arguments nested tokens = arguments nested' tokens := by
  simp only [arguments]
  split
  · rfl
  · refine bind_congr_ok (agree tokens enough) ?_
    rintro ⟨first, rest⟩ read
    -- The first argument leaves fewer words than there were.
    have shorter := (sound read).shorter
    dsimp only at shorter ⊢
    rw [moreArguments_agree sound agree _ (by omega)]

/-- Suffixes are the same with readers that agree on the words within them. -/
theorem suffixes_agree (limit : Nat) (object : Expr) (enough : tokens.length ≤ bound) :
    suffixes nested limit object tokens = suffixes nested' limit object tokens := by
  -- By the limit, which goes down with the words that are left.
  induction limit generalizing object tokens with
  | zero => rfl
  | succ limit ih =>
    rcases tokens with _ | ⟨⟨lexeme, line⟩, after⟩
    · rfl
    simp only [suffixes, headToken_cons, List.tail_cons, List.length_cons] at enough ⊢
    split
    · -- In parentheses there are arguments, behind a point a name, and in brackets a position.
      split
      · refine bind_congr_ok (arguments_agree sound agree enough) ?_
        rintro ⟨es, rest⟩ read
        have shorter := (arguments_sound sound read).shorter
        dsimp only
        exact ih _ (by omega)
      · rfl
    · refine bind_congr_ok rfl ?_
      rintro ⟨field, rest⟩ read
      obtain ⟨line', rfl, -⟩ := name_eq_ok.mp read
      simp only [List.length_cons] at enough
      dsimp only
      exact ih _ (by omega)
    · -- A position may be any expression, which takes at least a word.
      refine bind_congr_ok (agree after enough) ?_
      rintro ⟨position, rest⟩ read
      have shorter := (sound read).shorter
      refine bind_congr_ok rfl fun rest' closed => ?_
      obtain ⟨line', rfl⟩ := expect_eq_ok.mp closed
      exact ih _ (by simp only [List.length_cons] at shorter; omega)
    · rfl

/-- Operands are the same with readers that agree on the words within them. -/
theorem unary_agree (agreeDeeper : AgreeBelow bound deeper deeper')
    (enough : tokens.length ≤ bound) :
    unary deeper nested tokens = unary deeper' nested' tokens := by
  -- An operator in front takes a word, and what follows is read by the deeper readers.
  simp only [unary]
  cases signed : headUnary? tokens with
  | some op =>
    obtain ⟨line, after, rfl⟩ := headUnary?_eq_some.mp signed
    simp only [List.length_cons, List.tail_cons] at enough ⊢
    rw [agreeDeeper after enough]
  | none =>
    -- Only parentheses have an expression inside, and they take a word for themselves.
    have primaries : primary nested tokens = primary nested' tokens := by
      unfold primary
      split
      · rfl
      · rfl
      · rfl
      · rfl
      · simp only [List.length_cons] at enough
        rw [agree _ enough]
      · rfl
    refine bind_congr_ok primaries ?_
    rintro ⟨object, rest⟩ read
    have objectRead := primary_sound sound read
    -- Suffixes are read behind the operand, where no more words are left than in front of it.
    refine suffixes_agree sound agree _ object ?_
    cases objectRead with
    | suffixed spans => exact Nat.le_trans (Nat.le_of_lt spans.shorter) enough
    | called => exact Nat.le_of_lt enough

end Agreement

/-- A loop is the same with readers that agree on the words within it. -/
theorem loop_agree {operators : List BinaryOp} (shortens : Shortens operand)
    (agree : AgreeBelow bound operand operand') (limit : Nat) (left : Expr)
    (enough : tokens.length ≤ bound) :
    loop operators operand limit left tokens = loop operators operand' limit left tokens := by
  induction limit generalizing tokens left with
  | zero => rfl
  | succ limit ih =>
    cases met : headAmong? operators tokens with
    | none => rw [loop_stop met, loop_stop met]
    | some op =>
      -- The operator and its right operand are passed before the loop goes on.
      have fewer := length_tail_lt met
      simp only [loop, met]
      refine bind_congr_ok (agree _ (by omega)) ?_
      rintro ⟨right, rest⟩ read
      have shorter := shortens read
      dsimp only
      -- Both sides go on from the same words, which are fewer than at the start.
      exact ih _ (by omega)

/-- Levels of operators are the same with operands that agree on the words within them. -/
theorem layers_agree (shortens : Shortens operand) (agree : AgreeBelow bound operand operand')
    (count : Nat) : AgreeBelow bound (layers operand count) (layers operand' count) := by
  induction count with
  | zero => exact agree
  | succ count ih =>
    intro tokens enough
    simp only [layers, level]
    refine bind_congr_ok (ih tokens enough) ?_
    rintro ⟨left, rest⟩ read
    -- The first operand of a level leaves fewer words for the loop behind it.
    have shorter := layers_shortens shortens count read
    exact loop_agree (layers_shortens shortens count) ih _ left (by dsimp only at shorter ⊢; omega)

/-- An expression is climbed as it is read level by level. -/
theorem ternary_eq_choice (sound : Sound nested fun e => (ExprPhrase.expression e).Spans room)
    (operandSound : Sound operand fun e => (ExprPhrase.operand e).Spans room)
    (agree : AgreeBelow bound nested nested')
    (agreeOperand : AgreeBelow (bound + 1) operand operand') (fits : bound ≤ room)
    (enough : tokens.length ≤ bound) :
    ternary room operand nested tokens = choice operand' nested' tokens := by
  have shortens : Shortens operand := fun _ _ _ read => (operandSound read).shorter
  -- The condition is climbed through all levels, for which there is room for every operator.
  have conditions : climb operand room BinaryOp.levels 1 tokens = disjunction operand' tokens := by
    rw [climb_eq_layers shortens _ (by decide) (Nat.le_refl _) (Nat.le_trans enough fits),
      disjunction_eq_layers]
    exact layers_agree shortens agreeOperand _ tokens (by omega)
  unfold ternary choice
  refine bind_congr_ok conditions ?_
  rintro ⟨condition, rest⟩ read
  have shorter : rest.length < tokens.length := by
    rw [climb_eq_layers shortens _ (by decide) (Nat.le_refl _) (Nat.le_trans enough fits)] at read
    exact layers_shortens shortens _ read
  dsimp only
  -- Only a question mark leads into the nested readers.
  split
  · rename_i question
    obtain ⟨line, after, rfl⟩ := startsWith_iff.mp question
    simp only [List.length_cons, List.tail_cons] at shorter ⊢
    -- Both alternatives are behind the question mark, and so among fewer words.
    refine bind_congr_ok (agree after (by omega)) ?_
    rintro ⟨yes, afterYes⟩ readYes
    have shorterYes := (sound readYes).shorter
    dsimp only at shorterYes ⊢
    refine bind_congr_ok rfl fun afterColon colon => ?_
    obtain ⟨line', rfl⟩ := expect_eq_ok.mp colon
    simp only [List.length_cons] at shorterYes
    rw [agree afterColon (by omega)]
  · rfl

/-- Fewer words than levels are climbed as they are read level by level, operands as well. -/
theorem readers_agree (bound : Nat) : ∀ {room depth : Nat}, bound ≤ room → bound ≤ depth →
    AgreeBelow bound (exprParsers room).expression (readers depth).expression ∧
      AgreeBelow bound (exprParsers room).operand (readers depth).operand := by
  -- What is nested in other words is among fewer of them.
  induction bound with
  | zero => exact fun _ _ => ⟨nofun, nofun⟩
  | succ bound ih =>
    intro room depth fits fits'
    obtain ⟨room, rfl⟩ : ∃ less, room = less + 1 := ⟨room - 1, by omega⟩
    obtain ⟨depth, rfl⟩ : ∃ less, depth = less + 1 := ⟨depth - 1, by omega⟩
    obtain ⟨agree, agreeDeeper⟩ := @ih room depth (by omega) (by omega)
    obtain ⟨sound, deeperSound⟩ := exprParsers_sound room
    -- Operands use the readers that are nested, which agree on fewer words.
    have operands : AgreeBelow (bound + 1)
        (unary (exprParsers room).operand (exprParsers room).expression)
        (unary (readers depth).operand (readers depth).expression) :=
      fun tokens enough => unary_agree sound agree agreeDeeper (by omega)
    refine ⟨fun tokens enough => ?_, operands⟩
    exact ternary_eq_choice sound (unary_sound sound deeperSound) agree operands (by omega) (by omega)

/--
Climbing by precedence gives what the plain descent gives, the same tree or the same error.

Within more levels than there are words, the nesting plays no part and both always agree.
Within fewer levels they still do, unless the nesting ends the climbing.
-/
theorem expression_eq_descent (tokens : List Token) (room : Nat) :
    (tokens.length < room → Source.expression room tokens = expression tokens) ∧
      (Source.expression room tokens = expression tokens ∨
        IsTooDeep (Source.expression room tokens)) := by
  have agrees : ∀ {room}, tokens.length < room →
      Source.expression room tokens = expression tokens := fun {room} enough =>
    (readers_agree (tokens.length + 1) enough (Nat.le_refl _)).1 tokens (Nat.lt_succ_self _)
  refine ⟨agrees, ?_⟩
  -- With enough levels beside those that are given, the answer is that of the descent.
  rw [← agrees (Nat.lt_of_lt_of_le (Nat.lt_succ_self _) (Nat.le_max_right room (tokens.length + 1)))]
  exact expression_narrows (Nat.le_max_left room _) tokens

/-- Operators of three levels and a choice, in which the product binds tightest, are read alike. -/
theorem expression_eq_descent_levels :
    let tokens := [word "a" 1, sign .less 1, word "b" 1, sign .plus 1, word "c" 1, sign .star 1,
      word "d" 1, sign .question 1, word "x" 1, sign .colon 1, word "y" 1, sign .semicolon 1]
    tokens.length < maxNesting ∧
      Source.expression maxNesting tokens = expression tokens ∧
      expression tokens = .ok (.ternary (.binary .less (.variable "a") (.binary .add (.variable "b")
        (.binary .multiply (.variable "c") (.variable "d")))) (.variable "x") (.variable "y"),
        [sign .semicolon 1]) := by
  -- The words are fewer than the levels, and the descent is computed.
  intro tokens
  have enough : tokens.length < maxNesting := by decide
  exact ⟨enough, (expression_eq_descent tokens maxNesting).1 enough, rfl⟩

end Shading.Descent

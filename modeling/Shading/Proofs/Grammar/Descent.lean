import Shading.Proofs.Grammar.ExprSound

/-! Reading expressions by plain descent: one reader for each level of the grammar. -/

namespace Shading.Descent

open Source Grammar

/-- The operator between two operands that the words start with, if it is one of these. -/
def headAmong? (operators : List BinaryOp) (tokens : List Token) : Option BinaryOp :=
  (headBinary? tokens).filter operators.contains

/-- Goes on from a left operand through the operators of a level. -/
def loop (operators : List BinaryOp) (next : Parser Expr) : Nat → Expr → Parser Expr
  -- Every operator takes a word, so that none is left when the limit is met.
  | 0, left, tokens => .ok (left, tokens)
  | limit + 1, left, tokens =>
    match headAmong? operators tokens with
    | none => .ok (left, tokens)
    | some op => do
      let (right, rest) ← next tokens.tail
      loop operators next limit (.binary op left right) rest

/-- Reads operands of the next level, joined from the left by the operators of a level. -/
def level (operators : List BinaryOp) (next : Parser Expr) : Parser Expr := fun tokens => do
  let (left, rest) ← next tokens
  loop operators next rest.length left rest

/-- Reads products and quotients of operands. -/
def multiplicative (operand : Parser Expr) : Parser Expr :=
  level [.multiply, .divide] operand

/-- Reads sums and differences. -/
def additive (operand : Parser Expr) : Parser Expr :=
  level [.add, .subtract] (multiplicative operand)

/-- Reads comparisons by order. -/
def relational (operand : Parser Expr) : Parser Expr :=
  level [.less, .greater, .lessEqual, .greaterEqual] (additive operand)

/-- Reads comparisons for equality. -/
def equality (operand : Parser Expr) : Parser Expr :=
  level [.equal, .notEqual] (relational operand)

/-- Reads conjunctions of bits. -/
def bitConjunction (operand : Parser Expr) : Parser Expr :=
  level [.bitAnd] (equality operand)

/-- Reads disjunctions of bits. -/
def bitDisjunction (operand : Parser Expr) : Parser Expr :=
  level [.bitOr] (bitConjunction operand)

/-- Reads conjunctions. -/
def conjunction (operand : Parser Expr) : Parser Expr :=
  level [.and] (bitDisjunction operand)

/-- Reads disjunctions. -/
def disjunction (operand : Parser Expr) : Parser Expr :=
  level [.or] (conjunction operand)

/-- Reads a disjunction, or a choice between two expressions that it decides. -/
def choice (operand nested : Parser Expr) : Parser Expr := fun tokens => do
  let (condition, rest) ← disjunction operand tokens
  if startsWith .question rest then
    let (yes, rest) ← nested rest.tail
    let rest ← expect .colon rest
    let (no, rest) ← nested rest
    return (.ternary condition yes no, rest)
  else return (condition, rest)

/-- The readers of expressions and of operands, one level deeper than where they are used. -/
def readers : Nat → ExprParsers
  -- Every level takes a word, so that no word is left for the deepest one.
  | 0 => ⟨unexpected .expression, unexpected .expression⟩
  | depth + 1 =>
    let inner := readers depth
    let operand := unary inner.operand inner.expression
    ⟨choice operand inner.expression, operand⟩

/-- Reads an expression, however deeply it is nested. -/
def expression : Parser Expr := fun tokens =>
  (readers (tokens.length + 1)).expression tokens

/-- The operators of a level, from the loosest to the tightest. -/
def operatorsOf : Nat → List BinaryOp
  | 1 => [.or]
  | 2 => [.and]
  | 3 => [.bitOr]
  | 4 => [.bitAnd]
  | 5 => [.equal, .notEqual]
  | 6 => [.less, .greater, .lessEqual, .greaterEqual]
  | 7 => [.add, .subtract]
  | 8 => [.multiply, .divide]
  | _ => []

/-- An operator belongs to the level on which it binds. -/
theorem mem_operatorsOf {op : BinaryOp} {place : Nat} :
    op ∈ operatorsOf place ↔ op.precedence = place := by
  -- Beyond the eighth level there are no operators, and none binds there.
  unfold operatorsOf
  split <;> cases op <;> simp_all [BinaryOp.precedence, eq_comm]

/-- Reads operands joined on this many of the tightest levels. -/
def layers (operand : Parser Expr) : Nat → Parser Expr
  | 0 => operand
  | count + 1 => level (operatorsOf (BinaryOp.levels - count)) (layers operand count)

/-- All levels together are the readers of the grammar, one upon the other. -/
theorem disjunction_eq_layers (operand : Parser Expr) :
    disjunction operand = layers operand BinaryOp.levels := rfl

/-- A reader takes at least one word whenever it reads something. -/
def Shortens (reader : Parser Expr) : Prop :=
  ∀ ⦃tokens e rest⦄, reader tokens = .ok (e, rest) → rest.length < tokens.length

variable {operators : List BinaryOp} {next operand : Parser Expr} {tokens rest : List Token}

/-- Two steps are the same when the first ones are, and the second ones for what these give. -/
theorem bind_congr_ok {ε α β : Type} {first first' : Except ε α} {next next' : α → Except ε β}
    (same : first = first') (sameNext : ∀ value, first = .ok value → next value = next' value) :
    first >>= next = first' >>= next' := by
  -- A fault of the first step ends both.
  subst same
  cases first with
  | error => rfl
  | ok value => exact sameNext value rfl

/-- A loop ends before a word that is none of its operators. -/
theorem loop_stop (noOperator : headAmong? operators tokens = none) (limit : Nat) (left : Expr) :
    loop operators next limit left tokens = .ok (left, tokens) := by
  -- Whether a step is left or not, there is no operator to go on with.
  cases limit with
  | zero => rfl
  | succ limit => simp only [loop, noOperator]

/-- An operator of the level is met only where there is a word. -/
theorem length_tail_lt {op : BinaryOp} (met : headAmong? operators tokens = some op) :
    tokens.tail.length < tokens.length := by
  -- The operator is itself the word.
  cases tokens with
  | nil => cases met
  | cons => exact Nat.lt_succ_self _

/-- The limit of a loop is never met before the words are. -/
theorem loop_limit (shortens : Shortens next) {limit limit' : Nat} (enough : tokens.length ≤ limit)
    (enough' : tokens.length ≤ limit') (left : Expr) :
    loop operators next limit left tokens = loop operators next limit' left tokens := by
  -- Along the operators of the loop, each of which leaves fewer words than the limits allow.
  induction limit generalizing tokens limit' left with
  | zero =>
    obtain rfl := List.length_eq_zero_iff.mp (Nat.le_zero.mp enough)
    exact (loop_stop rfl limit' left).symm
  | succ limit ih =>
    cases met : headAmong? operators tokens with
    | none => rw [loop_stop met, loop_stop met]
    | some op =>
      have fewer := length_tail_lt met
      obtain ⟨limit', rfl⟩ : ∃ less, limit' = less + 1 := ⟨limit' - 1, by omega⟩
      simp only [loop, met]
      refine bind_congr_ok rfl ?_
      rintro ⟨right, rest⟩ read
      -- The right operand takes words as well.
      have shorter := shortens read
      dsimp only
      exact ih (by omega) (by omega) _

/-- A loop leaves no more words than there were. -/
theorem loop_length_le (shortens : Shortens next) {limit : Nat} {left e : Expr}
    (read : loop operators next limit left tokens = .ok (e, rest)) :
    rest.length ≤ tokens.length := by
  -- By the limit: each round passes an operator and its right operand.
  induction limit generalizing tokens left with
  | zero =>
    obtain ⟨-, rfl⟩ := Prod.mk.inj (Except.ok.inj read)
    exact Nat.le_refl _
  | succ limit ih =>
    cases met : headAmong? operators tokens with
    | none =>
      rw [loop_stop met] at read
      obtain ⟨-, rfl⟩ := Prod.mk.inj (Except.ok.inj read)
      exact Nat.le_refl _
    | some op =>
      simp only [loop, met, bind_eq_ok, Prod.exists] at read
      obtain ⟨right, afterRight, readRight, readMore⟩ := read
      -- The operator, its right operand and what the loop reads behind them are all passed.
      have := length_tail_lt met
      have := shortens readRight
      have := ih readMore
      omega

/-- Levels of operators take a word with the operands they start with. -/
theorem layers_shortens (shortens : Shortens operand) (count : Nat) :
    Shortens (layers operand count) := by
  -- From the operand outwards: a loop only takes further words.
  induction count with
  | zero => exact shortens
  | succ count ih =>
    intro tokens e rest read
    simp only [layers, level, bind_eq_ok, Prod.exists] at read
    obtain ⟨left, afterLeft, readLeft, readMore⟩ := read
    exact Nat.lt_of_le_of_lt (loop_length_le ih readMore) (ih readLeft)

/-- An operator that stands in front and binds more loosely is none of the level. -/
theorem headAmong?_eq_none {place least : Nat} (looser : LooserHead least tokens)
    (tight : least ≤ place) : headAmong? (operatorsOf place) tokens = none := by
  -- The operators of a level all have the same precedence, which is not that of the one in front.
  unfold headAmong?
  rw [Option.filter_eq_none_iff]
  intro op met member
  have below := looser op met
  have binds := mem_operatorsOf.mp (List.contains_iff_mem.mp member)
  omega

/-- A loop stops before an operator that binds more loosely than its own. -/
theorem loop_looserHead (shortens : Shortens next) {place limit : Nat} {left e : Expr}
    (stops : ∀ {tokens e rest}, next tokens = .ok (e, rest) → LooserHead (place + 1) rest)
    (head : LooserHead (place + 1) tokens) (enough : tokens.length ≤ limit)
    (read : loop (operatorsOf place) next limit left tokens = .ok (e, rest)) :
    LooserHead place rest := by
  -- An operator that is not of the level is looser, since it is looser than the next one.
  have ended : ∀ {words}, LooserHead (place + 1) words →
      headAmong? (operatorsOf place) words = none → LooserHead place words := by
    intro words looser none op met
    have below := looser op met
    have differs : op.precedence ≠ place := by
      intro same
      simp [headAmong?, met, mem_operatorsOf.mpr same] at none
    omega
  induction limit generalizing tokens left with
  -- Without a limit there are no words left, and no operator before them.
  | zero =>
    obtain rfl := List.length_eq_zero_iff.mp (Nat.le_zero.mp enough)
    obtain ⟨-, rfl⟩ := Prod.mk.inj (Except.ok.inj read)
    exact ended head rfl
  | succ limit ih =>
    cases met : headAmong? (operatorsOf place) tokens with
    | none =>
      rw [loop_stop met] at read
      obtain ⟨-, rfl⟩ := Prod.mk.inj (Except.ok.inj read)
      exact ended head met
    | some op =>
      simp only [loop, met, bind_eq_ok, Prod.exists] at read
      obtain ⟨right, afterRight, readRight, readMore⟩ := read
      have := length_tail_lt met
      have := shortens readRight
      -- The right operand stops before an operator that is looser, as the left one did.
      exact ih (stops readRight) (by omega) readMore

/-- Levels of operators end before an operator that binds more loosely. -/
theorem layers_looserHead (shortens : Shortens operand) {count least : Nat}
    (levels : least + count = BinaryOp.levels + 1) {e : Expr}
    (read : layers operand count tokens = .ok (e, rest)) : LooserHead least rest := by
  induction count generalizing least tokens e rest with
  -- No operator binds tighter than all levels.
  | zero =>
    intro op _
    have := op.precedence_bounds.2
    omega
  | succ count ih =>
    simp only [layers, level, bind_eq_ok, Prod.exists] at read
    obtain ⟨left, afterLeft, readLeft, readMore⟩ := read
    obtain rfl : least = BinaryOp.levels - count := by omega
    -- Each operand of the level was read by the tighter ones, and ends as they do.
    exact loop_looserHead (layers_shortens shortens count)
      (fun read => ih (by omega) read) (ih (by omega) readLeft) (Nat.le_refl _) readMore

end Shading.Descent

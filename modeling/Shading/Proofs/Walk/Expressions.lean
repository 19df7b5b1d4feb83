import Shading.Proofs.Grammar.ExprSound
import Shading.Proofs.Walk.Reads

/-! Expressions are read with a state as they are read from the words alone. -/

namespace Shading.Walk

open Source Grammar

variable {s : State} {room : Nat} {reader : Walk Expr} {parser : Parser Expr}

/-- Phrases are read as a parser reads them wherever as many levels are left. -/
structure ReadsExpr (phrase : Expr → ExprPhrase) (room : Nat) (reader : Walk Expr)
    (parser : Parser Expr) : Prop where
  reads : ∀ {s : State}, s.Ready room → Reads id s reader (parser s.words)
  sound : Sound parser fun e => (phrase e).Spans room

/-- The arguments of a call from one on are read up to the parenthesis that ends them. -/
theorem argumentList_reads (expression : ReadsExpr .expression room reader parser) (limit : Nat)
    (bound : List Token → Nat) (ready : s.Ready room) (enough : s.words.length < limit)
    (bounds : ∀ rest : List Token, rest.length < s.words.length → rest.length ≤ bound rest) :
    Reads id s (argumentList reader limit) (do
      let (first, rest) ← parser s.words
      let (more, rest) ← moreArguments parser (bound rest) rest
      return (first :: more, rest)) := by
  -- Every argument takes a word, so both limits go down with the words that are left.
  induction limit generalizing s bound with
  | zero => omega
  | succ limit ih =>
    refine .bind ready (expression.reads ready) fun first {s₁} ready₁ read => ?_
    have fewer := (expression.sound read).shorter
    have covered := bounds _ fewer
    obtain ⟨below, bound_eq⟩ := ready₁.sound.limit_succ covered
    show Reads id s₁ _ (moreArguments parser (bound s₁.words) s₁.words >>= _)
    rw [bound_eq, moreArguments]
    refine .look (fun _ => rfl) ?_
    by_cases comma : startsWith .comma s₁.words = true
    · rw [if_pos comma, if_pos comma]
      refine .advance ready₁ (more_of_startsWith comma) fun {s₂} ready₂ words => ?_
      rw [← words]
      have fewer₂ := congrArg List.length words
      rw [List.length_tail] at fewer₂
      have reads := ih (fun _ => below) ready₂ (by omega) fun rest less => by omega
      exact .bind ready₂ reads fun more _ ready₃ _ => .done ready₃ _
    · -- Anything but a comma has to be the parenthesis at the end.
      rw [if_neg comma, if_neg comma, bind_assoc]
      exact Passes.bind ready₁ (pass_passes ready₁ _) fun ready₂ _ => .done ready₂ _

/-- The arguments of a call are read up to the parenthesis that ends them. -/
theorem arguments_reads (expression : ReadsExpr .expression room reader parser)
    (ready : s.Ready room) :
    Reads id s (arguments reader) (Source.arguments parser s.words) := by
  refine .visiting ready ?_ fun read => (arguments_sound expression.sound read).shorter
  unfold Source.arguments
  refine .look (fun _ => rfl) (.branch (fun closed => ?_) fun _ => ?_)
  · refine .advance ready (more_of_startsWith closed) fun ready₁ words => ?_
    rw [← words]
    exact .done ready₁ []
  · -- As many arguments can follow as there are words.
    exact .looping fun limit enough =>
      argumentList_reads expression limit List.length ready enough fun rest _ => Nat.le_refl _

/-- A primary expression is read. -/
theorem primary_reads (expression : ReadsExpr .expression room reader parser)
    (ready : s.Ready room) :
    Reads id s (primary reader) (Source.primary parser s.words) := by
  unfold Walk.primary
  refine .look (fun _ => rfl) ?_
  obtain ⟨⟨lexeme, line⟩, rest, split⟩ := ready.sound.ends.exists_cons
  -- A word that stands for itself is passed; any other is faulted.
  have passed : ∀ value : Expr, (headToken s.words).isEnd = false →
      Reads id s (advance >>= fun _ => pure value) (.ok (value, rest)) := by
    intro value more
    refine .advance ready more fun ready₁ words => ?_
    rw [split, List.tail_cons] at words
    rw [← words]
    exact .done ready₁ value
  have refused : Reads id s (unexpected .expression : Walk Expr)
      (Source.unexpected .expression (⟨lexeme, line⟩ :: rest)) := by
    rw [← split]
    exact .fault ready
  cases lexeme with
  | integer text value =>
    rw [split]
    exact passed (.int value) (by rw [split]; rfl)
  | float text value =>
    rw [split]
    exact passed (.float value) (by rw [split]; rfl)
  | boolean value =>
    rw [split]
    exact passed (.bool value) (by rw [split]; rfl)
  | identifier name =>
    -- Whether a type is called is seen from the word behind it.
    have more : (headToken s.words).isEnd = false := by rw [split]; rfl
    rw [split]
    refine .peek ready more (fun _ => rfl) ?_
    rw [split]
    exact .branch (fun _ => refused) fun _ => passed (.variable name) more
  -- The end is not passed, and nor is a symbol that opens nothing.
  | endOfFile =>
    rw [split]
    exact refused
  | symbol symbol =>
    -- Behind an opening parenthesis an expression is read, and a closing one is passed.
    by_cases opens : symbol = .leftParen
    · subst opens
      rw [split]
      refine .advance ready (by rw [split]; rfl) fun ready₁ words => ?_
      rw [split, List.tail_cons] at words
      rw [← words]
      refine .bind ready₁ (expression.reads ready₁) fun inner _ ready₂ _ => ?_
      exact Passes.bind ready₂ (pass_passes ready₂ _) fun ready₃ _ => .done ready₃ inner
    · rw [split]
      cases symbol <;> first | exact absurd rfl opens | exact refused

/-- The suffixes of an expression are read as long as there are any. -/
theorem suffixes_reads (expression : ReadsExpr .expression room reader parser) (limit : Nat)
    {limit' : Nat} (object : Expr) (ready : s.Ready room) (enough : s.words.length < limit)
    (enough' : s.words.length ≤ limit') :
    Reads id s (suffixes reader limit object) (Source.suffixes parser limit' object s.words) := by
  -- Every suffix takes a word, so both limits go down with the words that are left.
  induction limit generalizing s limit' object with
  | zero => omega
  | succ limit ih =>
    obtain ⟨below, rfl⟩ := ready.sound.limit_succ enough'
    unfold Walk.suffixes Source.suffixes
    refine .look (fun _ => rfl) ?_
    -- The suffix that was read is followed by the others, within limits that are one less.
    have further : ∀ (object : Expr) {s' : State}, s'.Ready room →
        s'.words.length < s.words.length →
        Reads id s' (suffixes reader limit object)
          (Source.suffixes parser below object s'.words) := fun object _ ready' fewer =>
      ih object ready' (by omega) (by omega)
    cases met : (headToken s.words).lexeme with
    | symbol symbol =>
      have more : (headToken s.words).isEnd = false := by simp [Token.isEnd, met]
      have inside : ∀ {tokens : List Token}, tokens = s.words.tail →
          tokens.length ≤ s.words.length := by
        rintro _ rfl
        simp
      cases symbol with
      | leftParen =>
        cases object with
        | «variable» callee =>
          refine .advance ready more fun ready₁ words => ?_
          rw [← words]
          refine .bind ready₁ (arguments_reads expression ready₁) fun arguments _ ready₂ read => ?_
          have fewer := (arguments_sound expression.sound read).shorter
          exact further _ ready₂ (Nat.lt_of_lt_of_le fewer (inside words))
        -- Only a name can be called.
        | _ => exact .fault ready
      -- Behind a dot there is a name, which takes a word.
      | dot =>
        refine .advance ready more fun ready₁ words => ?_
        rw [← words]
        refine .bind ready₁ (name_reads ready₁ .fieldName) fun field _ ready₂ read => ?_
        exact further _ ready₂ (Nat.lt_of_lt_of_le (name_shorter read) (inside words))
      | leftBracket =>
        refine .advance ready more fun ready₁ words => ?_
        rw [← words]
        refine .bind ready₁ (expression.reads ready₁) fun position _ ready₂ read => ?_
        have fewer := (expression.sound read).shorter
        refine Passes.bind ready₂ (pass_passes ready₂ .rightBracket) fun ready₃ passed => ?_
        have closing := expect_shorter passed
        have within := inside words
        exact further _ ready₃ (by omega)
      | _ => exact .done ready object
    | _ => exact .done ready object

/-- A primary expression is read with its suffixes. -/
theorem suffixed_reads (expression : ReadsExpr .expression room reader parser)
    (ready : s.Ready room) :
    Reads id s (suffixed reader) (do
      let (object, rest) ← Source.primary parser s.words
      Source.suffixes parser rest.length object rest) := by
  refine .visiting ready ?_ ?_
  · exact .bind ready (primary_reads expression ready) fun object _ ready₁ _ =>
      .looping fun limit enough =>
        suffixes_reads expression limit object ready₁ enough (Nat.le_refl _)
  · -- What was read took the words of a primary expression at least.
    intro e rest read
    obtain ⟨⟨object, after⟩, readObject, readSuffixes⟩ := bind_eq_ok.mp read
    exact (suffixes_sound expression.sound (primary_sound expression.sound readObject)
      (Nat.le_refl _) readSuffixes).shorter

/-- An operand is read with the operators before it. -/
theorem unary_reads {deeper : Walk Expr} {deeper' : Parser Expr}
    (expression : ReadsExpr .expression room reader parser)
    (operand : ∀ {s : State}, s.Ready room → Reads id s (nested deeper) (deeper' s.words))
    (sound : Sound (Source.unary deeper' parser) fun e => (ExprPhrase.operand e).Spans room) :
    ReadsExpr .operand room (unary deeper reader) (Source.unary deeper' parser) := by
  refine ⟨fun {s} ready => .visiting ready ?_ fun read => (sound read).shorter, sound⟩
  refine .look (fun _ => rfl) ?_
  unfold Source.unary
  -- The operator is passed, and its operand is read one level deeper.
  cases met : headUnary? s.words with
  | some op =>
    obtain ⟨line, after, split⟩ := headUnary?_eq_some.mp met
    refine .advance ready (by rw [split]; rfl) fun ready₁ words => ?_
    rw [← words]
    exact .bind ready₁ (operand ready₁) fun e _ ready₂ _ => .done ready₂ _
  | none => exact suffixed_reads expression ready

/-- A left operand is read on through the operators that bind tightly enough. -/
theorem chain_reads {tighter : Nat → Walk Expr} {tighter' : Nat → Parser Expr} {least : Nat}
    (reads : ∀ {op : BinaryOp} {s : State}, least ≤ op.precedence → s.Ready room →
      Reads id s (tighter (op.precedence + 1)) (tighter' (op.precedence + 1) s.words))
    (shorter : ∀ {op : BinaryOp} {e : Expr} {tokens rest : List Token}, least ≤ op.precedence →
      tighter' (op.precedence + 1) tokens = .ok (e, rest) → rest.length < tokens.length)
    (limit : Nat) {chained further : Nat} (left : Expr) (ready : s.Ready room)
    (enough : s.words.length < limit) (fits : chained + further = room) :
    Reads id s (chain tighter least limit chained left)
      (Source.chain tighter' least further left s.words) := by
  -- What was chained and what may still be chained are the levels that are left.
  induction limit generalizing s chained further left with
  | zero => omega
  | succ limit ih =>
    have whole := ready.fits
    unfold Walk.chain Source.chain
    refine .look (fun _ => rfl) ?_
    cases met : headBinary? s.words with
    | none => exact .done ready left
    | some op =>
      refine .branch (fun _ => .done ready left) fun tight => .level ?_
      cases further with
      | zero =>
        -- No level is left for a further operator.
        rw [if_pos (by omega)]
        exact .fault ready
      | succ further =>
        rw [if_neg (by omega)]
        obtain ⟨line, after, split⟩ := headBinary?_eq_some.mp met
        refine .advance ready (by rw [split]; rfl) fun ready₁ words => ?_
        rw [← words]
        have loose : least ≤ op.precedence := by omega
        refine .bind ready₁ (reads loose ready₁) fun right _ ready₂ read => ?_
        have fewer := shorter loose read
        have within := congrArg List.length words
        rw [List.length_tail] at within
        -- One level is used up, and the operator and its operand are passed.
        exact ih _ ready₂ (by omega) (by omega)

/-- Operands joined by operators that bind tightly enough are read. -/
theorem binary_reads (operand : ReadsExpr .operand room reader parser) (levels : Nat) {least : Nat}
    (small : least ≤ BinaryOp.levels + 1) (large : BinaryOp.levels + 1 ≤ least + levels)
    (ready : s.Ready room) :
    Reads id s (binary reader (levels + 1) least) (climb parser room levels least s.words) := by
  -- By the levels of precedence that are left, from the tightest one outwards.
  induction levels generalizing s least with
  | zero =>
    refine .visiting ready ?_ fun read => (operand.sound read).shorter
    -- No operator binds more tightly than all, so the chain ends with its first operand.
    rw [climb, ← bind_pure (parser s.words)]
    refine .bind ready (operand.reads ready) fun left {s₁} ready₁ _ => .looping fun limit enough => ?_
    obtain ⟨limit, rfl⟩ : ∃ below, limit = below + 1 := ⟨limit - 1, by omega⟩
    unfold Walk.chain
    refine .look (fun _ => rfl) ?_
    cases headBinary? s₁.words with
    | none => exact .done ready₁ left
    | some op =>
      have bounds := op.precedence_bounds
      show Reads id s₁ (if op.precedence < least then _ else _) _
      rw [if_pos (by omega)]
      exact .done ready₁ left
  | succ levels ih =>
    have joins := climb_sound operand.sound (levels + 1) small large
    refine .visiting ready ?_ fun read => (joins read).1.elim fun _ spans => spans.shorter
    refine .bind ready (operand.reads ready) fun left _ ready₁ _ => ?_
    refine .looping fun limit enough => chain_reads ?_ ?_ limit left ready₁ enough (Nat.zero_add room)
    -- To the right of an operator, one level of precedence is done with.
    · intro op s' loose ready'
      have bounds := op.precedence_bounds
      exact ih (by omega) (by omega) ready'
    · intro op e tokens rest loose read
      have bounds := op.precedence_bounds
      have joins := climb_sound operand.sound levels (by omega) (by omega) read
      exact joins.1.elim fun _ spans => spans.shorter

/-- Joined operands, or a choice between two expressions, are read. -/
theorem ternary_reads {operandReader : Walk Expr} {operandParser : Parser Expr}
    (operand : ReadsExpr .operand room operandReader operandParser)
    (expression : ReadsExpr .expression room reader parser) (ready : s.Ready room) :
    Reads id s (ternary operandReader reader)
      (Source.ternary room operandParser parser s.words) := by
  refine .bind ready (binary_reads operand BinaryOp.levels (by decide) (by decide) ready)
    fun condition _ ready₁ _ => ?_
  -- The question mark decides whether the condition is all there is.
  refine .look (fun _ => rfl) (.branch (fun question => ?_) fun _ => .done ready₁ condition)
  refine .advance ready₁ (more_of_startsWith question) fun ready₂ words => ?_
  rw [← words]
  refine .bind ready₂ (expression.reads ready₂) fun yes _ ready₃ _ => ?_
  refine Passes.bind ready₃ (pass_passes ready₃ _) fun ready₄ _ => ?_
  exact .bind ready₄ (expression.reads ready₄) fun no _ ready₅ _ => .done ready₅ _

/-- A record is kept of an expression that is read one level deeper. -/
theorem expression_of_nested
    (reads : ∀ {s : State}, s.Ready room →
      Reads id s (nested (expressions room).ternary) (Source.expression room s.words)) :
    ReadsExpr .expression room (Walk.expression room) (Source.expression room) :=
  -- A record needs a reading that takes a word, which the grammar says of expressions.
  ⟨fun ready => .visiting ready (reads ready) fun read => (expression_sound room read).shorter,
    expression_sound room⟩

/-- The readers of a number of levels read one level deeper what the parsers of that number accept. -/
theorem expressions_read (room : Nat) {s : State} (ready : s.Ready room) :
    Reads id s (nested (expressions room).ternary) (Source.expression room s.words) ∧
      Reads id s (nested (expressions room).unary) ((exprParsers room).operand s.words) := by
  induction room generalizing s with
  -- With no level left, both find that it is too deep.
  | zero => exact ⟨.nested ready (fun _ => rfl) nofun, .nested ready (fun _ => rfl) nofun⟩
  | succ room ih =>
    -- What is nested has the readers of one level less, for which the induction speaks.
    have expression := expression_of_nested fun ready => (ih ready).1
    have operand := unary_reads expression (fun ready => (ih ready).2)
      (unary_sound (expression_sound room) (exprParsers_sound room).2)
    refine ⟨.nested ready nofun ?_, .nested ready nofun ?_⟩
    all_goals
      intro fewer s' less below words
      obtain rfl : room = fewer := by omega
      rw [← words]
    · exact ternary_reads operand expression below
    · exact operand.reads below

/-- Expressions are read as they are from the words alone. -/
theorem expression_reads (room : Nat) :
    ReadsExpr .expression room (Walk.expression room) (Source.expression room) :=
  -- All readers of expressions were dealt with in one induction.
  expression_of_nested fun ready => (expressions_read room ready).1

end Shading.Walk

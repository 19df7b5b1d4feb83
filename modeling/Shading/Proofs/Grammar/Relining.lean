import Shading.Program.Parse
import Shading.Proofs.Grammar.Accepts

/-! Lines have no part in what is read: with other lines, the same is read on those lines. -/

namespace Shading.Grammar

open Source

/-- Other lines for the words of a source; the first line stays, which stands for no word at all. -/
structure Relining where
  line : Nat → Nat
  first : line 1 = 1

namespace Relining

variable (relining : Relining) {α β : Type}

/-- The same word on its other line. -/
def token (token : Token) : Token :=
  ⟨token.lexeme, relining.line token.line⟩

/-- The same words on their other lines. -/
def tokens (tokens : List Token) : List Token :=
  tokens.map relining.token

/-- The same fault on its other line. -/
def fault (fault : GrammarError) : GrammarError :=
  ⟨relining.line fault.line, fault.cause⟩

/-- The same component of a layout on its other line. -/
def component (named : String × Nat) : String × Nat :=
  (named.1, relining.line named.2)

/-- The same top-level part, with all its lines replaced. -/
def item : Item α → Item α
  | .declaration role declared line => .declaration role declared (relining.line line)
  | .layout named line => .layout (named.map relining.component) (relining.line line)
  | .stage which body line => .stage which body (relining.line line)

mutual

/-- The same part of a source, with the lines of all top-level parts in it replaced. -/
def sourceItem : SourceItem → SourceItem
  | .always i => .always (relining.item i)
  | .choice tested yes no => .choice tested (sourceItems yes) (sourceItems no)

/-- The same parts of a source, with the lines of all top-level parts in them replaced. -/
def sourceItems : List SourceItem → List SourceItem
  | [] => []
  | part :: rest => sourceItem part :: sourceItems rest

end

/-- Results of one step for the same words on two sets of lines, of which one is the other replaced. -/
def Moves (move : α → β) (result : Except GrammarError α) (result' : Except GrammarError β) : Prop :=
  result' = (result.map move).mapError relining.fault

/-- The words that a value was read from are followed by the same words, on other lines. -/
def behind (move : α → β) (read : α × List Token) : β × List Token :=
  (move read.1, relining.tokens read.2)

/-- A reader that does not look at lines, except to copy them to what it reads. -/
def Follows (move : α → α) (parser : Parser α) : Prop :=
  ∀ tokens, relining.Moves (relining.behind move) (parser tokens) (parser (relining.tokens tokens))

/-- Parts that were read from the same words on other lines. -/
def outcome (move : α → α) (outcome : Outcome α) : Outcome α :=
  ⟨outcome.completed.map move, (outcome.rest.map relining.tokens).mapError relining.fault⟩

/-- A reader of parts that does not look at lines, except to copy them to the parts. -/
def FollowsParts (move : α → α) (part : PartsParser α) : Prop :=
  ∀ tokens, part (relining.tokens tokens) = relining.outcome move (part tokens)

variable {relining} {γ : Type} {room : Nat} {tokens : List Token}

/-- The parts of a list are replaced one by one. -/
theorem sourceItems_eq (items : List SourceItem) :
    relining.sourceItems items = items.map relining.sourceItem := by
  -- The definition recurs along the list, as a map does.
  induction items with
  | nil => rw [sourceItems, List.map_nil]
  | cons part rest ih => rw [sourceItems, ih, List.map_cons]

@[simp] theorem headToken_tokens :
    headToken (relining.tokens tokens) = relining.token (headToken tokens) := by
  -- The end that stands for missing words has its own line, which is copied as well.
  cases tokens with
  | nil => simp [headToken, tokens, token, relining.first]
  | cons => rfl

@[simp] theorem tail_tokens : (relining.tokens tokens).tail = relining.tokens tokens.tail := by
  -- The words are mapped one by one.
  simp [Relining.tokens, List.map_tail]

@[simp] theorem length_tokens : (relining.tokens tokens).length = tokens.length := by
  -- The words are mapped one by one.
  simp [Relining.tokens]

@[simp] theorem isEnd_token (token : Token) : (relining.token token).isEnd = token.isEnd := rfl

@[simp] theorem headKeyword?_tokens :
    headKeyword? (relining.tokens tokens) = headKeyword? tokens := by
  -- Only the text of the first word is asked for.
  simp [headKeyword?, Token.keyword?, token]

@[simp] theorem startsWith_tokens (symbol : Symbol) :
    startsWith symbol (relining.tokens tokens) = startsWith symbol tokens := by
  -- Only the kind of the first word is asked for.
  simp [startsWith, token]

@[simp] theorem startsWithIdentifier_tokens :
    startsWithIdentifier (relining.tokens tokens) = startsWithIdentifier tokens := by
  -- Only the kind of the first word is asked for.
  simp [startsWithIdentifier, token]

@[simp] theorem startsConditional_tokens :
    startsConditional (relining.tokens tokens) = startsConditional tokens := by
  -- A test is told by its keyword.
  simp [startsConditional]

namespace Moves

variable {move : α → β} {result : Except GrammarError α} {result' : Except GrammarError β}

/-- What a step returns is returned for the words on other lines. -/
theorem ok (value : α) : relining.Moves move (.ok value) (.ok (move value)) :=
  -- The value is moved, and nothing else happens.
  rfl

/-- What is returned for the words on other lines of a success. -/
theorem eq_ok {value : α} (moves : relining.Moves move (.ok value) result') :
    result' = .ok (move value) :=
  -- The statement is that the results are equal up to lines.
  moves

/-- The fault that is met in the words on other lines of a fault. -/
theorem eq_error {fault : GrammarError} (moves : relining.Moves move (.error fault) result') :
    result' = .error (relining.fault fault) :=
  -- The statement is that the results are equal up to lines.
  moves

/-- Two steps copy lines when both of them do. -/
theorem bind {δ : Type} {move' : γ → δ} {next : α → Except GrammarError γ}
    {next' : β → Except GrammarError δ} (first : relining.Moves move result result')
    (second : ∀ value, relining.Moves move' (next value) (next' (move value))) :
    relining.Moves move' (result >>= next) (result' >>= next') := by
  -- The second step is taken behind a success only, from the value on its other lines.
  rw [Moves] at first
  subst first
  cases result with
  | error => rfl
  | ok value => exact second value

/-- A choice between two steps copies lines when both of them do. -/
theorem ite {condition condition' : Prop} [Decidable condition] [Decidable condition']
    {no : Except GrammarError α} {no' : Except GrammarError β} (same : condition' ↔ condition)
    (first : condition → relining.Moves move result result')
    (second : ¬ condition → relining.Moves move no no') :
    relining.Moves move (if condition then result else no)
      (if condition' then result' else no') := by
  -- Lines have no part in the condition, so that both sides choose alike.
  by_cases holds : condition
  · rw [if_pos holds, if_pos (same.mpr holds)]
    exact first holds
  · rw [if_neg holds, if_neg (mt same.mp holds)]
    exact second holds

/-- A fault of the first word names its line. -/
theorem unexpected (move : α → β) (expected : Expectation) (tokens : List Token) :
    relining.Moves move (unexpected expected tokens) (unexpected expected (relining.tokens tokens)) := by
  -- The first word of the other lines is the first word on its other line.
  simp only [Source.unexpected, headToken_tokens]
  rfl

/-- A fault for the depth of the first word names its line. -/
theorem tooDeep (move : α → β) (tokens : List Token) :
    relining.Moves move (tooDeep tokens) (tooDeep (relining.tokens tokens)) := by
  -- The first word of the other lines is the first word on its other line.
  simp only [Source.tooDeep, headToken_tokens]
  rfl

/-- Passing a symbol copies no line but that of a fault. -/
theorem expect (symbol : Symbol) (tokens : List Token) :
    relining.Moves relining.tokens (expect symbol tokens)
      (expect symbol (relining.tokens tokens)) := by
  -- The symbol is in front on both sides or on neither.
  unfold Source.expect
  refine ite (by simp) (fun _ => ?_) fun _ => unexpected _ _ _
  rw [tail_tokens]
  exact ok _

end Moves

/-- Names are read on other lines. -/
theorem name_follows (expected : Expectation) : relining.Follows id (name expected) := by
  intro tokens
  -- Whether the name is reserved is told by its text, which is the same.
  rcases tokens with _ | ⟨⟨lexeme, line⟩, rest⟩
  · exact .unexpected _ expected []
  · cases lexeme with
    | identifier => exact .ite Iff.rfl (fun _ => .unexpected _ _ (_ :: _)) fun _ => .ok _
    | _ => exact .unexpected _ _ (_ :: _)

/-- Data types are read on other lines. -/
theorem dataType_follows : relining.Follows id dataType := by
  intro tokens
  -- The line of the first word is in the fault only.
  rcases tokens with _ | ⟨⟨lexeme, line⟩, rest⟩
  · exact .unexpected _ .dataType []
  · cases lexeme with
    | identifier name =>
      simp only [Relining.tokens, List.map_cons, token, dataType]
      cases DataType.ofKeyword? name <;> rfl
    | _ => exact .unexpected _ _ (_ :: _)

section Expressions

variable {deeper nested : Parser Expr}

/-- The arguments after the first one are read on other lines. -/
theorem moreArguments_follows (follows : relining.Follows id nested) (limit : Nat) :
    relining.Follows id (moreArguments nested limit) := by
  -- By the limit, which is the number of words on both sides.
  induction limit with
  | zero => exact fun tokens => (Moves.expect _ tokens).bind fun _ => .ok _
  | succ limit ih =>
    intro tokens
    refine .ite (by simp) (fun _ => ?_) fun _ => (Moves.expect _ tokens).bind fun _ => .ok _
    rw [tail_tokens]
    exact (follows _).bind fun _ => (ih _).bind fun _ => .ok _

/-- The arguments of a call are read on other lines. -/
theorem arguments_follows (follows : relining.Follows id nested) :
    relining.Follows id (arguments nested) := by
  -- A parenthesis is next on both sides or on neither.
  intro tokens
  refine .ite (by simp) (fun _ => ?_) fun _ => ?_
  · rw [tail_tokens]
    exact .ok _
  · refine (follows _).bind fun read => ?_
    simp only [behind, length_tokens]
    exact (moreArguments_follows follows _ _).bind fun _ => .ok _

/-- Primary expressions are read on other lines. -/
theorem primary_follows (follows : relining.Follows id nested) :
    relining.Follows id (primary nested) := by
  -- Without any word the fault is at the end.
  intro tokens
  rcases tokens with _ | ⟨⟨lexeme, line⟩, rest⟩
  · exact .unexpected _ .expression []
  · -- The kind of the first word decides, and no line is part of an expression.
    cases lexeme with
    | endOfFile => exact .unexpected _ _ (_ :: _)
    | float | integer | boolean => exact .ok _
    | identifier =>
      refine .ite ?_ (fun _ => .unexpected _ _ (_ :: _)) fun _ => .ok _
      rw [show List.map relining.token rest = relining.tokens rest from rfl, startsWith_tokens]
    | symbol symbol =>
      cases symbol with
      | leftParen =>
        exact (follows _).bind fun _ => (Moves.expect _ _).bind fun _ => .ok _
      | _ => exact .unexpected _ _ (_ :: _)

/-- Suffixes are read on other lines. -/
theorem suffixes_follows (follows : relining.Follows id nested) (limit : Nat) (object : Expr) :
    relining.Follows id (suffixes nested limit object) := by
  induction limit generalizing object with
  | zero => exact fun _ => .ok _
  | succ limit ih =>
    intro tokens
    simp only [suffixes, headToken_tokens, token, tail_tokens]
    -- Behind each suffix, the further ones are read on other lines as well.
    split
    · split
      · exact (arguments_follows follows _).bind fun _ => ih _ _
      · exact .unexpected _ _ _
    · exact (name_follows _ _).bind fun _ => ih _ _
    · exact (follows _).bind fun _ => (Moves.expect _ _).bind fun _ => ih _ _
    · exact .ok _

/-- Operands are read on other lines. -/
theorem unary_follows (followsDeeper : relining.Follows id deeper)
    (follows : relining.Follows id nested) : relining.Follows id (unary deeper nested) := by
  intro tokens
  -- An operator is told by its symbol, on whichever line it stands.
  have head : headUnary? (relining.tokens tokens) = headUnary? tokens := by
    simp [headUnary?, token]
  simp only [unary, head, tail_tokens]
  split
  · exact (followsDeeper _).bind fun _ => .ok _
  · refine (primary_follows follows _).bind fun read => ?_
    simp only [behind, length_tokens]
    exact suffixes_follows follows _ _ _

/-- Chains of operators are read on other lines. -/
theorem chain_follows {tighter : Nat → Parser Expr}
    (follows : ∀ level, relining.Follows id (tighter level)) (least room : Nat) (left : Expr) :
    relining.Follows id (chain tighter least room left) := by
  induction room generalizing left with
  -- By the room that is left for operators; the one that is met next is the same.
  | zero =>
    intro tokens
    -- The operator is a symbol, which has no line.
    have head : headBinary? (relining.tokens tokens) = headBinary? tokens := by
      simp [headBinary?, token]
    unfold chain
    rw [head]
    split
    · exact .ok _
    · exact .ite Iff.rfl (fun _ => .ok _) fun _ => .tooDeep _ _
  | succ room ih =>
    intro tokens
    have head : headBinary? (relining.tokens tokens) = headBinary? tokens := by
      simp [headBinary?, token]
    unfold chain
    rw [head, tail_tokens]
    split
    · exact .ok _
    · exact .ite Iff.rfl (fun _ => .ok _) fun _ => (follows _ _).bind fun _ => ih _ _

/-- Joined operands are read on other lines. -/
theorem climb_follows (follows : relining.Follows id nested) (room levels : Nat) :
    ∀ least, relining.Follows id (climb nested room levels least) := by
  -- From the tightest level outwards.
  induction levels with
  | zero => exact fun _ => follows
  | succ levels ih =>
    exact fun least tokens => (follows _).bind fun _ => chain_follows ih least room _ _

/-- Choices between expressions are read on other lines. -/
theorem ternary_follows {operand : Parser Expr} (followsOperand : relining.Follows id operand)
    (follows : relining.Follows id nested) (room : Nat) :
    relining.Follows id (ternary room operand nested) := by
  -- The question mark and the colon are found in the same places.
  intro tokens
  refine (climb_follows followsOperand _ _ _ _).bind fun read => ?_
  refine .ite (by simp) (fun _ => ?_) fun _ => .ok _
  rw [tail_tokens]
  exact (follows _).bind fun _ => (Moves.expect _ _).bind fun _ => (follows _).bind fun _ => .ok _

/-- Expressions and operands are read on other lines. -/
theorem exprParsers_follows (room : Nat) :
    relining.Follows id (exprParsers room).expression ∧
      relining.Follows id (exprParsers room).operand := by
  -- With no room at all the fault names the first word, and otherwise one level is taken off.
  induction room with
  | zero => exact ⟨.tooDeep _, .tooDeep _⟩
  | succ room ih =>
    have operand := unary_follows ih.2 ih.1
    exact ⟨ternary_follows operand ih.1 room, operand⟩

end Expressions

section Parts

variable {move : α → α} {part chained : PartsParser α}

/-- Parts without a fault have none on other lines. -/
theorem outcome_ok (completed : List α) (rest : List Token) :
    relining.outcome move ⟨completed, .ok rest⟩ =
      ⟨completed.map move, .ok (relining.tokens rest)⟩ := rfl

/-- Parts that a fault ends are ended by it on other lines. -/
theorem outcome_error (completed : List α) (fault : GrammarError) :
    relining.outcome move ⟨completed, .error fault⟩ =
      ⟨completed.map move, .error (relining.fault fault)⟩ := rfl

/-- Parts after a part are read on other lines when they are. -/
theorem outcome_andThen (follows : relining.FollowsParts move part) (first : Outcome α) :
    (relining.outcome move first).andThen part = relining.outcome move (first.andThen part) := by
  -- A fault ends both sides, and otherwise the parts are moved one by one.
  rcases first with ⟨completed, _ | rest⟩
  · rfl
  · simp only [Outcome.andThen, outcome_ok, follows rest]
    simp only [outcome, List.map_append]

/-- A single part is read on other lines with its reader. -/
theorem outcome_ofResult {read read' : Except GrammarError (α × List Token)}
    (same : relining.Moves (relining.behind move) read read') :
    Outcome.ofResult read' = relining.outcome move (.ofResult read) := by
  -- Both sides have a fault or a part.
  rw [Moves] at same
  subst same
  cases read <;> rfl

/-- Parts as a whole are read on other lines. -/
theorem outcome_toResult (outcome : Outcome α) :
    relining.Moves (relining.behind (List.map move)) outcome.toResult
      (relining.outcome move outcome).toResult := by
  -- Both sides have a fault or all parts.
  rcases outcome with ⟨completed, _ | rest⟩ <;> rfl

/-- A step before parts moves the fault that it may be. -/
theorem outcome_unexpected (expected : Expectation) (tokens : List Token) :
    (⟨[], unexpected expected (relining.tokens tokens)⟩ : Outcome α) =
      relining.outcome move ⟨[], unexpected expected tokens⟩ := by
  -- The fault names the first word, which is on its other line.
  simp only [Source.unexpected, headToken_tokens]
  rfl

/-- Parts up to a closing brace are read on other lines. -/
theorem untilBrace_follows (follows : relining.FollowsParts move part) (limit : Nat) :
    relining.FollowsParts move (untilBrace part limit) := by
  -- By the limit, which is the number of words on both sides.
  induction limit with
  | zero =>
    intro tokens
    simp only [untilBrace, startsWith_tokens, tail_tokens]
    split
    · rfl
    · exact outcome_unexpected _ _
  | succ limit ih =>
    intro tokens
    -- Brace and end are found in the same places, as lines have no part in either.
    simp only [untilBrace, startsWith_tokens, tail_tokens, headToken_tokens, isEnd_token]
    split
    · rfl
    · split
      · exact outcome_unexpected _ _
      · rw [follows, outcome_andThen ih]

/-- Parts between braces are read on other lines. -/
theorem braced_follows (follows : relining.FollowsParts move part) :
    relining.FollowsParts move (braced part) := by
  intro tokens
  -- The brace is passed on any line, and as many words are left behind it.
  have opened := @Moves.expect relining .leftBrace tokens
  unfold braced
  cases passed : expect .leftBrace tokens with
  | error =>
    rw [passed] at opened
    -- Without a brace both fail, on their own lines.
    rw [opened.eq_error]
    rfl
  | ok rest =>
    rw [passed] at opened
    simp only [opened.eq_ok, length_tokens]
    exact untilBrace_follows follows _ _

/-- What follows the first region of a conditional is read on other lines. -/
theorem alternative_follows (follows : relining.FollowsParts move part)
    (followsChained : relining.FollowsParts move chained) :
    relining.FollowsParts move (alternative part chained) := by
  -- The words in front decide, and they are the same ones on other lines.
  intro tokens
  simp only [alternative, headKeyword?_tokens, tail_tokens, startsConditional_tokens]
  split
  · split
    · exact followsChained _
    · exact braced_follows follows _
  · rfl

/-- Conditionals are read on other lines. -/
theorem conditional_follows {choice : Shading.Guard → List α → List α → α}
    (moves : ∀ tested yes no, move (choice tested yes no) =
      choice tested (yes.map move) (no.map move))
    (follows : relining.FollowsParts move part)
    (followsChained : relining.FollowsParts move chained) :
    relining.FollowsParts move (conditional choice part chained) := by
  -- The test is read first; its key has no line.
  intro tokens
  have test : relining.Moves (relining.behind id) (Source.guard tokens)
      (Source.guard (relining.tokens tokens)) := by
    simp only [Source.guard, headKeyword?_tokens, tail_tokens]
    exact (name_follows _ _).bind fun _ => .ok _
  unfold conditional
  cases passed : Source.guard tokens with
  | error =>
    rw [passed] at test
    rw [test.eq_error]
    rfl
  | ok read =>
    obtain ⟨tested, inside⟩ := read
    rw [passed] at test
    simp only [test.eq_ok, behind, braced_follows follows inside]
    -- If the first region fails, the conditional is completed without an alternative.
    rcases braced part inside with ⟨completed, _ | rest⟩
    · simp [outcome_error, moves]
    · simp only [outcome_ok]
      rw [alternative_follows follows followsChained rest]
      simp only [outcome, List.map_cons, List.map_nil, moves]
      rfl

end Parts

section Bodies

variable {inner : BodyParsers}

/-- Readers of parts of a body that do not look at lines. -/
structure FollowsBodies (relining : Relining) (readers : BodyParsers) : Prop where
  statement : relining.FollowsParts id readers.statement
  conditional : relining.FollowsParts id readers.conditional
  selection : relining.Follows id readers.selection
  block : relining.Follows id readers.block

/-- Expressions are read on other lines. -/
theorem expression_follows (room : Nat) : relining.Follows id (Source.expression room) :=
  -- Expressions and operands were dealt with together.
  (exprParsers_follows room).1

/-- Statements that hold no others are read on other lines. -/
theorem simpleStatement_follows (room : Nat) : relining.Follows id (simpleStatement room) := by
  have follows := @expression_follows relining room
  -- A type, a name and a value are read in this order.
  have declaration : relining.Follows id (localDeclaration room) := by
    intro tokens
    refine (dataType_follows _).bind fun _ => (name_follows _ _).bind fun read => ?_
    refine .ite (by simp) (fun _ => ?_) fun _ => (Moves.expect _ _).bind fun _ => .ok _
    rw [tail_tokens]
    exact (follows _).bind fun _ => (Moves.expect _ _).bind fun _ => .ok _
  have assigned : relining.Follows id (assignment room) := by
    intro tokens
    refine (follows _).bind fun ⟨target, rest⟩ => ?_
    -- Whether there is an assignment is told by the symbol behind the target.
    have head : headAssign? (relining.tokens rest) = headAssign? rest := by
      simp [headAssign?, token]
    simp only [behind, head, tail_tokens]
    split
    · refine .ite Iff.rfl (fun _ => ?_) fun _ => .unexpected _ _ _
      exact (follows _).bind fun _ => (Moves.expect _ _).bind fun _ => .ok _
    · exact (Moves.expect _ _).bind fun _ => .ok _
  -- What the first two words are tells what is read, and not where they stand.
  intro tokens
  simp only [simpleStatement, headKeyword?_tokens, tail_tokens, headToken_tokens, token,
    startsWithIdentifier_tokens]
  split
  · exact (Moves.expect _ _).bind fun _ => .ok _
  · exact (Moves.expect _ _).bind fun _ => .ok _
  · split
    · exact .ite Iff.rfl (fun _ => declaration _) fun _ => assigned _
    · exact assigned _

/-- An `if` is read on other lines. -/
theorem selection_follows (room : Nat) (follows : FollowsBodies relining inner) :
    relining.Follows id (selection room inner) := by
  intro tokens
  simp only [selection, tail_tokens]
  refine (Moves.expect _ _).bind fun _ => (expression_follows room _).bind fun _ => ?_
  refine (Moves.expect _ _).bind fun _ => (follows.block _).bind fun read => ?_
  -- Both words behind the block are looked for by what they are.
  refine .ite (by simp [behind]) (fun _ => .ite (by simp [behind]) (fun _ => ?_) fun _ => ?_)
    fun _ => .ok _
  · simp only [behind, tail_tokens]
    exact (follows.selection _).bind fun _ => .ok _
  · simp only [behind, tail_tokens]
    exact (follows.block _).bind fun _ => .ok _

/-- Conditionals among statements are read on other lines. -/
theorem conditionalStatement_follows (follows : FollowsBodies relining inner) :
    relining.FollowsParts id (Source.conditional .choice inner.statement inner.conditional) :=
  -- The guard and the regions of a choice are moved one by one.
  conditional_follows (fun _ _ _ => by simp) follows.statement follows.conditional

/-- Statements are read on other lines. -/
theorem statement_follows (room : Nat) (follows : FollowsBodies relining inner) :
    relining.FollowsParts id (statement room inner) := by
  -- The first word decides which kind of statement is read.
  intro tokens
  simp only [statement, headKeyword?_tokens]
  split
  · exact conditionalStatement_follows follows _
  · exact conditionalStatement_follows follows _
  · exact outcome_ofResult (selection_follows room follows _)
  · exact outcome_ofResult (simpleStatement_follows room _)

/-- Parts of bodies are read on other lines. -/
theorem bodyParsers_follows (room : Nat) : FollowsBodies relining (bodyParsers room) := by
  -- By the number of levels: with none left every reader refuses at once, whatever the lines.
  induction room with
  | zero =>
    have refused : relining.FollowsParts id fun tokens =>
        (⟨[], tooDeep tokens⟩ : Outcome SourceStatement) := by
      intro tokens
      simp only [Source.tooDeep, headToken_tokens]
      rfl
    exact ⟨refused, refused, .tooDeep _, .tooDeep _⟩
  | succ room ih =>
    have statement := statement_follows room ih
    refine ⟨statement, conditionalStatement_follows ih, selection_follows room ih, fun tokens => ?_⟩
    -- A block is read like the parts between its braces, of which nothing is left after a fault.
    have whole := @outcome_toResult relining _ id
      (braced (Source.statement room (bodyParsers room)) tokens)
    rw [← braced_follows statement, List.map_id_fun] at whole
    exact whole

end Bodies

section Units

/-- The names of components are read with their other lines. -/
theorem componentNames_follows (limit : Nat) :
    relining.Follows (List.map relining.component) (componentNames limit) := by
  -- By the limit, of which each component takes one.
  induction limit with
  | zero =>
    intro tokens
    refine .ite (by simp) (fun _ => ?_) fun _ => .unexpected _ _ _
    rw [tail_tokens]
    exact .ok _
  | succ limit ih =>
    intro tokens
    refine .ite (by simp) (fun _ => ?_) fun _ => ?_
    · rw [tail_tokens]
      exact .ok _
    · -- The line of a component is the one of its first word, on the other line as well.
      rw [headToken_tokens]
      refine (name_follows _ _).bind fun ⟨name, rest⟩ => ?_
      refine .ite (by simp) (fun _ => ?_) fun _ => ?_
      · exact (Moves.ok _).bind fun _ => (ih _).bind fun _ => .ok _
      · exact (Moves.expect _ _).bind fun _ => (ih _).bind fun _ => .ok _

/-- Plain top-level parts are read with their other lines. -/
theorem plainItem_follows (room : Nat) : relining.Follows relining.item (plainItem room) := by
  -- A declaration keeps the line of its name, and the other parts that of their keyword.
  have declaration : ∀ role, relining.Follows relining.item (Source.declaration role) := by
    intro role tokens
    refine (dataType_follows _).bind fun ⟨type, rest⟩ => ?_
    simp only [behind, headToken_tokens]
    exact (name_follows _ _).bind fun _ => (Moves.expect _ _).bind fun _ => .ok _
  have stage : ∀ which, relining.Follows relining.item (stageItem room which) := by
    intro which tokens
    simp only [stageItem, tail_tokens, headToken_tokens]
    exact ((bodyParsers_follows room).block _).bind fun _ => .ok _
  have layout : relining.Follows relining.item layoutItem := by
    intro tokens
    simp only [layoutItem, tail_tokens, headToken_tokens]
    refine (Moves.expect _ _).bind fun _ => ?_
    rw [length_tokens]
    exact (componentNames_follows _ _).bind fun _ => .ok _
  -- The keyword in front is the same on other lines, and it decides which part is read.
  intro tokens
  simp only [plainItem, headKeyword?_tokens, tail_tokens]
  split
  · exact declaration _ _
  · exact declaration _ _
  · exact declaration _ _
  · exact layout _
  · exact stage _ _
  · exact stage _ _
  · exact .unexpected _ _ _

/-- A choice between top-level parts is a choice between the parts with their other lines. -/
theorem sourceItem_choice (tested : Shading.Guard) (yes no : List SourceItem) :
    relining.sourceItem (.choice tested yes no) =
      .choice tested (yes.map relining.sourceItem) (no.map relining.sourceItem) := by
  -- The definition recurs through lists of its own, which are maps.
  rw [sourceItem, sourceItems_eq, sourceItems_eq]

/-- Top-level parts are read with their other lines. -/
theorem item_follows (room : Nat) {inner : ItemParsers}
    (follows : relining.FollowsParts relining.sourceItem inner.item)
    (followsConditional : relining.FollowsParts relining.sourceItem inner.conditional) :
    relining.FollowsParts relining.sourceItem (Source.item room inner) := by
  -- A test in front tells a conditional from a plain part, on either lines.
  intro tokens
  simp only [Source.item, startsConditional_tokens]
  split
  · exact conditional_follows sourceItem_choice follows followsConditional _
  · refine outcome_ofResult ?_
    -- A plain part is one alternative of what is read, and is moved as such.
    have plain := @plainItem_follows relining room tokens
    cases read : plainItem room tokens with
    | error =>
      rw [read] at plain
      rw [plain.eq_error]
      rfl
    | ok =>
      rw [read] at plain
      rw [plain.eq_ok, Moves]
      simp only [Except.map, behind, sourceItem]
      rfl

/-- Nested top-level parts are read with their other lines. -/
theorem itemParsers_follows (room : Nat) :
    relining.FollowsParts relining.sourceItem (itemParsers room).item ∧
      relining.FollowsParts relining.sourceItem (itemParsers room).conditional := by
  induction room with
  | zero =>
    -- Without room, the line of the first word is that of the fault.
    have refused : relining.FollowsParts relining.sourceItem fun tokens =>
        (⟨[], tooDeep tokens⟩ : Outcome SourceItem) := by
      intro tokens
      simp only [Source.tooDeep, headToken_tokens]
      rfl
    exact ⟨refused, refused⟩
  | succ room ih =>
    exact ⟨item_follows room ih.1 ih.2, conditional_follows sourceItem_choice ih.1 ih.2⟩

/-- Sources are read with their other lines. -/
theorem sourceItems_follows (room : Nat) :
    relining.FollowsParts relining.sourceItem (Source.sourceItems room) := by
  -- The readers of nested parts follow, so that the one around them does.
  obtain ⟨inner, conditional⟩ := @itemParsers_follows relining room
  have follows := item_follows room inner conditional
  -- As many parts can be read as there are words, and their number stays the same.
  have untilEnd : ∀ limit, relining.FollowsParts relining.sourceItem
      (untilEnd (Source.item room (itemParsers room)) limit) := by
    intro limit
    induction limit with
    | zero => exact fun _ => rfl
    | succ limit ih =>
      intro tokens
      simp only [Source.untilEnd, headToken_tokens, isEnd_token]
      split
      · rfl
      · rw [follows, outcome_andThen ih]
  intro tokens
  rw [Source.sourceItems, length_tokens]
  exact untilEnd _ _

end Units

end Relining

end Shading.Grammar

import Shading.Proofs.Grammar.Parts

/-! Selecting the words of a source that count under a define set, without reading its grammar. -/

namespace Shading.Selection

open Source Grammar

/-- An opening brace that is not closed yet. -/
inductive Brace
  /-- The brace of a block or of a layout, which counts with what is around it. -/
  | plain
  /-- The brace of a region, in which words may be kept, or else in the `else` that follows it. -/
  | region (kept keptElse : Bool)

/-- What the next word is to the scanner. -/
inductive Mode
  | text
  /-- The key of a test, which itself stands where words are kept or not. -/
  | key (present kept : Bool)
  /-- The brace that opens a region. -/
  | opening (kept keptElse : Bool)
  /-- What follows a region, which may be the `else` of the same conditional. -/
  | closed (keptElse : Bool)
  /-- What follows such an `else`: the brace of a region, or a further test. -/
  | otherwise (kept : Bool)

/-- What the scanner knows of the words it has passed, the innermost open brace first. -/
structure State where
  mode : Mode
  braces : List Brace

/-- Words are kept within these braces. -/
def kept : List Brace → Bool
  | [] => true
  | .plain :: outer => kept outer
  | .region kept _ :: _ => kept

/-- Whether a word tests for the presence or for the absence of a define, if it does so at all. -/
def test? (token : Token) : Option Bool :=
  match token.keyword? with
  | some .ifDefined => some true
  | some .ifUndefined => some false
  | _ => none

/-- Passes a word of the text: whether it is kept, and what follows. -/
def text (braces : List Brace) (token : Token) : Bool × State :=
  match test? token with
  | some present => (false, ⟨.key present (kept braces), braces⟩)
  | none =>
    match token.lexeme, braces with
    | .symbol .leftBrace, _ => (kept braces, ⟨.text, .plain :: braces⟩)
    | .symbol .rightBrace, .plain :: outer => (kept outer, ⟨.text, outer⟩)
    -- The braces of regions are dropped with their tests.
    | .symbol .rightBrace, .region _ keptElse :: outer => (false, ⟨.closed keptElse, outer⟩)
    | _, _ => (kept braces, ⟨.text, braces⟩)

/-- Passes a word: whether it is kept, and what follows. -/
def step (isDefined : String → Bool) : State → Token → Bool × State
  | ⟨.text, braces⟩, token => text braces token
  | ⟨.key present kept, braces⟩, token =>
    let holds := (Shading.Guard.mk token.lexeme.text present).holds isDefined
    (false, ⟨.opening (kept && holds) (kept && !holds), braces⟩)
  | ⟨.opening kept keptElse, braces⟩, _ => (false, ⟨.text, .region kept keptElse :: braces⟩)
  | ⟨.closed keptElse, braces⟩, token =>
    if token.keyword? = some .otherwise then (false, ⟨.otherwise keptElse, braces⟩)
    else text braces token
  | ⟨.otherwise kept, braces⟩, token =>
    match test? token with
    | some present => (false, ⟨.key present kept, braces⟩)
    -- Nothing is chained to what follows an `else` without a test.
    | none => (false, ⟨.text, .region kept false :: braces⟩)

/-- The words that are kept from a state on. -/
def selectFrom (isDefined : String → Bool) : State → List Token → List Token
  | _, [] => []
  | state, token :: rest =>
    let passed := step isDefined state token
    if passed.1 then token :: selectFrom isDefined passed.2 rest
    else selectFrom isDefined passed.2 rest

/--
The words of a source without its conditionals.

Of every conditional, the words within the branch that is taken are left.
-/
def select (isDefined : String → Bool) (tokens : List Token) : List Token :=
  selectFrom isDefined ⟨.text, []⟩ tokens

variable {isDefined : String → Bool} {braces : List Brace} {tokens rest : List Token}

/-- A word that has no meaning to the scanner. -/
def IsPlain (token : Token) : Prop :=
  test? token = none ∧ token.lexeme ≠ .symbol .leftBrace ∧ token.lexeme ≠ .symbol .rightBrace

/-- All symbols but braces are plain. -/
@[simp] theorem isPlain_sign {symbol : Symbol} (noLeft : symbol ≠ .leftBrace) (noRight : symbol ≠ .rightBrace)
    (line : Nat) : IsPlain (sign symbol line) :=
  -- A symbol tests nothing, and it is none of the two braces.
  ⟨rfl, by simpa using noLeft, by simpa using noRight⟩

/-- The symbols of operators before an operand are plain. -/
@[simp] theorem isPlain_unary (op : UnaryOp) (line : Nat) : IsPlain (sign op.symbol line) := by
  -- Each operator has a symbol of its own, which is no brace.
  cases op <;> exact isPlain_sign (by decide) (by decide) line

/-- The symbols of operators between operands are plain. -/
@[simp] theorem isPlain_binary (op : BinaryOp) (line : Nat) : IsPlain (sign op.symbol line) := by
  -- Each operator has a symbol of its own, which is no brace.
  cases op <;> exact isPlain_sign (by decide) (by decide) line

/-- The symbols of assignments are plain. -/
@[simp] theorem isPlain_assign (op : AssignOp) (line : Nat) : IsPlain (sign op.symbol line) := by
  -- Each operator has a symbol of its own, which is no brace.
  cases op <;> exact isPlain_sign (by decide) (by decide) line

/-- Literals are plain. -/
@[simp] theorem isPlain_literal (line : Nat) :
    (∀ text value, IsPlain ⟨.integer text value, line⟩) ∧
      (∀ text value, IsPlain ⟨.float text value, line⟩) ∧ ∀ value, IsPlain ⟨.boolean value, line⟩ :=
  -- Literals are neither keywords nor symbols.
  ⟨fun _ _ => ⟨rfl, by simp, by simp⟩, fun _ _ => ⟨rfl, by simp, by simp⟩,
    fun _ => ⟨rfl, by simp, by simp⟩⟩

/-- The word that ends a source is plain. -/
@[simp] theorem isPlain_end (line : Nat) : IsPlain ⟨.endOfFile, line⟩ :=
  -- The end is neither a keyword nor a symbol.
  ⟨rfl, by simp, by simp⟩

/-- All keywords but tests are plain. -/
theorem isPlain_keyword {keyword : Keyword} (noTest : ∀ present, keyword ≠ testKeyword present)
    (line : Nat) : IsPlain (word keyword.spelling line) := by
  have noPresence := noTest true
  have noAbsence := noTest false
  refine ⟨?_, by simp, by simp⟩
  -- Only the two keywords of tests are read as tests.
  cases keyword <;> first | rfl | simp [testKeyword] at noPresence noAbsence

/-- All names that are not reserved are plain. -/
@[simp] theorem isPlain_word {name : String} (free : isReserved name = false) (line : Nat) :
    IsPlain (word name line) := by
  -- Keywords are reserved.
  have noKeyword : Keyword.ofSpelling? name = none := by simpa [isReserved] using free
  exact ⟨by simp [test?, Token.keyword?, noKeyword], by simp, by simp⟩

/-- A test for a define is none of the plain words. -/
@[simp] theorem test?_testKeyword (present : Bool) (line : Nat) :
    test? (word (testKeyword present).spelling line) = some present := by
  -- The keyword of each test is read as this test.
  cases present <;> rfl

/-- A plain word is kept with what is around it. -/
theorem text_plain {token : Token} (plain : IsPlain token) (braces : List Brace) :
    text braces token = (kept braces, ⟨.text, braces⟩) := by
  -- The three things that are looked for are excluded.
  obtain ⟨noTest, noLeft, noRight⟩ := plain
  unfold text
  rw [noTest]
  split <;> simp_all

/-- Among words that are kept, a plain word is. -/
theorem selectFrom_plain_kept (keeps : kept braces = true) {token : Token} (plain : IsPlain token)
    (rest : List Token) :
    selectFrom isDefined ⟨.text, braces⟩ (token :: rest) =
      token :: selectFrom isDefined ⟨.text, braces⟩ rest := by
  -- The step of a plain word leaves the state as it is.
  simp [selectFrom, step, text_plain plain, keeps]

/-- Among words that are dropped, a plain word is. -/
theorem selectFrom_plain_dropped (drops : kept braces = false) {token : Token}
    (plain : IsPlain token) (rest : List Token) :
    selectFrom isDefined ⟨.text, braces⟩ (token :: rest) =
      selectFrom isDefined ⟨.text, braces⟩ rest := by
  -- The step of a plain word leaves the state as it is.
  simp [selectFrom, step, text_plain plain, drops]

/-- An opening brace of the text is kept with what is around it. -/
theorem selectFrom_open (line : Nat) (rest : List Token) :
    selectFrom isDefined ⟨.text, braces⟩ (sign .leftBrace line :: rest) =
      if kept braces then sign .leftBrace line :: selectFrom isDefined ⟨.text, .plain :: braces⟩ rest
      else selectFrom isDefined ⟨.text, .plain :: braces⟩ rest :=
  -- One step of the scanner, with a plain brace put on the others.
  rfl

/-- The brace that closes a plain one is kept with what is around both. -/
theorem selectFrom_close (line : Nat) (rest : List Token) :
    selectFrom isDefined ⟨.text, .plain :: braces⟩ (sign .rightBrace line :: rest) =
      if kept braces then sign .rightBrace line :: selectFrom isDefined ⟨.text, braces⟩ rest
      else selectFrom isDefined ⟨.text, braces⟩ rest :=
  -- One step of the scanner, with the plain brace taken off.
  rfl

/-- The brace that closes a region is dropped. -/
theorem selectFrom_closeRegion (inside keptElse : Bool) (line : Nat) (rest : List Token) :
    selectFrom isDefined ⟨.text, .region inside keptElse :: braces⟩ (sign .rightBrace line :: rest) =
      selectFrom isDefined ⟨.closed keptElse, braces⟩ rest :=
  -- One step of the scanner, which goes on to what may stand behind a region.
  rfl

/-- A test of the text stands where words are kept or not. -/
theorem selectFrom_starts (starts : startsConditional tokens = true) :
    selectFrom isDefined ⟨.text, braces⟩ tokens =
      selectFrom isDefined ⟨.otherwise (kept braces), braces⟩ tokens := by
  -- The state of a test remembers where the test stands, and reads the same word.
  obtain ⟨present, line, after, rfl⟩ := startsConditional_iff.mp starts
  simp [selectFrom, step, text]

/-- A test is dropped with its key and the brace of its region. -/
theorem selectFrom_test (place present : Bool) (key : String) (line line' line'' : Nat)
    (rest : List Token) :
    selectFrom isDefined ⟨.otherwise place, braces⟩
        (word (testKeyword present).spelling line :: word key line' :: sign .leftBrace line'' ::
          rest) =
      let holds := (Shading.Guard.mk key present).holds isDefined
      selectFrom isDefined ⟨.text, .region (place && holds) (place && !holds) :: braces⟩ rest := by
  -- Three steps: the test, its key, and the brace that opens the region.
  simp [selectFrom, step, Lexeme.text]

/-- An `else` behind a region is dropped. -/
theorem selectFrom_else (keptElse : Bool) (line : Nat) (rest : List Token) :
    selectFrom isDefined ⟨.closed keptElse, braces⟩
        (word (Keyword.spelling .otherwise) line :: rest) =
      selectFrom isDefined ⟨.otherwise keptElse, braces⟩ rest :=
  -- One step of the scanner, which waits for a test or a brace.
  rfl

/-- An `else` without a test is dropped with the brace of its region. -/
theorem selectFrom_otherwise (keptElse : Bool) (line line' : Nat) (rest : List Token) :
    selectFrom isDefined ⟨.closed keptElse, braces⟩
        (word (Keyword.spelling .otherwise) line :: sign .leftBrace line' :: rest) =
      selectFrom isDefined ⟨.text, .region keptElse false :: braces⟩ rest :=
  -- Two steps of the scanner: the keyword and the brace.
  rfl

/-- Without an `else`, the text goes on behind a region. -/
theorem selectFrom_closed (noElse : headKeyword? tokens ≠ some .otherwise) (keptElse : Bool) :
    selectFrom isDefined ⟨.closed keptElse, braces⟩ tokens =
      selectFrom isDefined ⟨.text, braces⟩ tokens := by
  -- The word behind the region is read as text, as the alternative did not come.
  rcases tokens with _ | ⟨token, rest⟩
  · rfl
  · have noElse : token.keyword? ≠ some .otherwise := noElse
    simp only [selectFrom, step, if_neg noElse]
    rfl

end Shading.Selection

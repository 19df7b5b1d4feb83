import Shading.Source.Unit

/-! What the first words of a source have to be for the smallest readers to accept them. -/

namespace Shading

/-- A keyword is spelt in one way only. -/
theorem Keyword.ofSpelling?_eq_some {name : String} {keyword : Keyword} :
    Keyword.ofSpelling? name = some keyword ↔ name = keyword.spelling := by
  -- The table has one row for each keyword, and the row of a spelling is found again.
  constructor
  · intro found
    unfold Keyword.ofSpelling? at found
    split at found <;> cases found <;> rfl
  · rintro rfl
    exact Keyword.ofSpelling?_spelling keyword

/-- The spelling of a keyword is reserved. -/
@[simp] theorem isReserved_spelling (keyword : Keyword) : isReserved keyword.spelling = true := by
  -- A word is reserved when the table of keywords has it.
  simp [isReserved]

/-- A type is named by one word only. -/
theorem DataType.ofKeyword?_eq_some {name : String} {type : DataType} :
    DataType.ofKeyword? name = some type ↔ name = type.keyword := by
  -- The table has one row for each type, and the row of its word is found again.
  constructor
  · intro found
    unfold DataType.ofKeyword? at found
    split at found <;> cases found <;> rfl
  · rintro rfl
    exact DataType.ofKeyword?_keyword type

/-- The words that name types are no keywords. -/
@[simp] theorem Keyword.ofSpelling?_keyword (type : DataType) :
    Keyword.ofSpelling? type.keyword = none := by
  -- No type shares its word with a keyword.
  cases type <;> rfl

/-- The words that name types are not reserved. -/
@[simp] theorem isReserved_keyword (type : DataType) : isReserved type.keyword = false := by
  -- No type shares its word with a keyword.
  cases type <;> rfl

/-- An operator before an operand is written with its symbol only. -/
theorem UnaryOp.ofSymbol?_eq_some {symbol : Symbol} {op : UnaryOp} :
    UnaryOp.ofSymbol? symbol = some op ↔ symbol = op.symbol := by
  -- All pairs of a symbol and an operator are compared.
  cases symbol <;> cases op <;> decide

/-- An operator between two operands is written with its symbol only. -/
theorem BinaryOp.ofSymbol?_eq_some {symbol : Symbol} {op : BinaryOp} :
    BinaryOp.ofSymbol? symbol = some op ↔ symbol = op.symbol := by
  -- All pairs of a symbol and an operator are compared.
  cases symbol <;> cases op <;> decide

/-- An assignment is written with its symbol only. -/
theorem AssignOp.ofSymbol?_eq_some {symbol : Symbol} {op : AssignOp} :
    AssignOp.ofSymbol? symbol = some op ↔ symbol = op.symbol := by
  -- All pairs of a symbol and an assignment are compared.
  cases symbol <;> cases op <;> decide

/-- Operators bind on the levels from one to eight. -/
theorem BinaryOp.precedence_bounds (op : BinaryOp) :
    1 ≤ op.precedence ∧ op.precedence ≤ BinaryOp.levels := by
  -- There are as many cases as operators.
  cases op <;> decide

namespace Grammar

open Source

/-- A symbol on a line. -/
abbrev sign (symbol : Symbol) (line : Nat) : Token :=
  ⟨.symbol symbol, line⟩

/-- An identifier on a line. -/
abbrev word (name : String) (line : Nat) : Token :=
  ⟨.identifier name, line⟩

variable {α β : Type} {tokens rest : List Token}

/-- A step that follows a success starts with what it gave. -/
@[simp] theorem ok_bind {ε : Type} (value : α) (next : α → Except ε β) :
    (Except.ok value >>= next) = next value := rfl

/-- A step that only returns is a success. -/
@[simp] theorem pure_eq {ε : Type} (value : α) : (pure value : Except ε α) = .ok value := rfl

/-- Two steps succeed when the first does and the second does with what the first gave. -/
theorem bind_eq_ok {ε : Type} {first : Except ε α} {next : α → Except ε β} {result : β} :
    first >>= next = .ok result ↔ ∃ value, first = .ok value ∧ next value = .ok result := by
  -- A fault of the first step is the fault of both.
  cases first with
  | error => simp [bind, Except.bind]
  | ok => simp

/-- A step that only returns succeeds with what it returns. -/
theorem pure_eq_ok {ε : Type} {value result : α} :
    (pure value : Except ε α) = .ok result ↔ value = result := by
  -- Returning is success with the value itself.
  simp

/-- These words remain of others when some are taken, and not the one that ends the source. -/
def Remains (rest tokens : List Token) : Prop :=
  ∃ words, tokens = words ++ rest ∧ ∀ token ∈ words, token.isEnd = false

namespace Remains

/-- All words remain when none is taken. -/
theorem refl (tokens : List Token) : Remains tokens tokens :=
  -- No word is in front of them.
  ⟨[], rfl, by simp⟩

/-- The words behind a first one remain. -/
theorem one {first : Token} (noEnd : first.isEnd = false := by rfl) :
    Remains rest (first :: rest) :=
  -- The only word in front is the one that is given, which is no end.
  ⟨[first], rfl, by simpa using noEnd⟩

/-- What remains of what remains is left in the end. -/
theorem trans {between : List Token} (after : Remains rest between)
    (before : Remains between tokens) : Remains rest tokens := by
  -- The words in front are those of both steps, and neither has an end among them.
  obtain ⟨later, rfl, noEndLater⟩ := after
  obtain ⟨earlier, rfl, noEndEarlier⟩ := before
  refine ⟨earlier ++ later, by simp, ?_⟩
  intro token member
  rcases List.mem_append.mp member with member | member
  · exact noEndEarlier token member
  · exact noEndLater token member

/-- The first of the words that remain may be taken as well. -/
theorem drop {first : Token} (all : Remains (first :: rest) tokens)
    (noEnd : first.isEnd = false := by rfl) : Remains rest tokens :=
  -- Taking one more word is a further step.
  trans (one noEnd) all

/-- No more words remain than there were. -/
theorem length_le (remains : Remains rest tokens) : rest.length ≤ tokens.length := by
  -- What is in front of the words that remain only adds to them.
  obtain ⟨words, rfl, -⟩ := remains
  simp

end Remains

/-- A limit that all words keep to allows a step after which the fewer that remain keep to it. -/
theorem limit_step {limit : Nat} (fewer : rest.length < tokens.length)
    (enough : tokens.length ≤ limit) : ∃ less, limit = less + 1 ∧ rest.length ≤ less :=
  -- A word that is taken is what the step pays with.
  ⟨limit - 1, by omega, by omega⟩

@[simp] theorem headToken_cons (token : Token) (rest : List Token) :
    headToken (token :: rest) = token := rfl

/-- Words start with a symbol when it is the first of them. -/
theorem startsWith_iff {symbol : Symbol} :
    startsWith symbol tokens = true ↔ ∃ line rest, tokens = sign symbol line :: rest := by
  -- The first word may be missing, and otherwise its kind is compared.
  rcases tokens with _ | ⟨⟨lexeme, line⟩, rest⟩ <;> simp [startsWith, headToken]

@[simp] theorem startsWith_sign (symbol other : Symbol) (line : Nat) (rest : List Token) :
    startsWith symbol (sign other line :: rest) = (other == symbol) := by
  -- The first word is the symbol, so that the two symbols are compared.
  simp [startsWith, BEq.beq]

@[simp] theorem startsWith_word (symbol : Symbol) (name : String) (line : Nat) (rest : List Token) :
    startsWith symbol (word name line :: rest) = false := by
  -- An identifier is no symbol.
  simp [startsWith]

/-- Words start with a keyword when it is the first of them. -/
theorem headKeyword?_eq_some {keyword : Keyword} :
    headKeyword? tokens = some keyword ↔ ∃ line rest, tokens = word keyword.spelling line :: rest := by
  -- Only identifiers can be keywords, and each keyword has one spelling.
  rcases tokens with _ | ⟨⟨lexeme, line⟩, rest⟩
  · simp [headKeyword?, headToken, Token.keyword?]
  · cases lexeme <;>
      simp [headKeyword?, headToken, Token.keyword?, Keyword.ofSpelling?_eq_some]

@[simp] theorem headKeyword?_word (name : String) (line : Nat) (rest : List Token) :
    headKeyword? (word name line :: rest) = Keyword.ofSpelling? name := rfl

@[simp] theorem headKeyword?_sign (symbol : Symbol) (line : Nat) (rest : List Token) :
    headKeyword? (sign symbol line :: rest) = none := rfl

/-- Words start with an operator before an operand when its symbol is the first of them. -/
theorem headUnary?_eq_some {op : UnaryOp} :
    headUnary? tokens = some op ↔ ∃ line rest, tokens = sign op.symbol line :: rest := by
  -- Only symbols can be operators, and each operator has one symbol.
  rcases tokens with _ | ⟨⟨lexeme, line⟩, rest⟩
  · simp [headUnary?, headToken]
  · cases lexeme <;> simp [headUnary?, UnaryOp.ofSymbol?_eq_some]

@[simp] theorem headUnary?_sign (op : UnaryOp) (line : Nat) (rest : List Token) :
    headUnary? (sign op.symbol line :: rest) = some op :=
  -- The symbol in front is that of the operator.
  headUnary?_eq_some.mpr ⟨line, rest, rfl⟩

/-- Words start with an operator between operands when its symbol is the first of them. -/
theorem headBinary?_eq_some {op : BinaryOp} :
    headBinary? tokens = some op ↔ ∃ line rest, tokens = sign op.symbol line :: rest := by
  -- Only symbols can be operators, and each operator has one symbol.
  rcases tokens with _ | ⟨⟨lexeme, line⟩, rest⟩
  · simp [headBinary?, headToken]
  · cases lexeme <;> simp [headBinary?, BinaryOp.ofSymbol?_eq_some]

@[simp] theorem headBinary?_sign (op : BinaryOp) (line : Nat) (rest : List Token) :
    headBinary? (sign op.symbol line :: rest) = some op :=
  -- The symbol in front is that of the operator.
  headBinary?_eq_some.mpr ⟨line, rest, rfl⟩

/-- Words start with an assignment when its symbol is the first of them. -/
theorem headAssign?_eq_some {op : AssignOp} :
    headAssign? tokens = some op ↔ ∃ line rest, tokens = sign op.symbol line :: rest := by
  -- Only symbols can be assignments, and each of these has one symbol.
  rcases tokens with _ | ⟨⟨lexeme, line⟩, rest⟩
  · simp [headAssign?, headToken]
  · cases lexeme <;> simp [headAssign?, AssignOp.ofSymbol?_eq_some]

@[simp] theorem headAssign?_sign (op : AssignOp) (line : Nat) (rest : List Token) :
    headAssign? (sign op.symbol line :: rest) = some op :=
  -- The symbol in front is that of the assignment.
  headAssign?_eq_some.mpr ⟨line, rest, rfl⟩

/-- A symbol is passed when it is the first word. -/
theorem expect_eq_ok {symbol : Symbol} :
    expect symbol tokens = .ok rest ↔ ∃ line, tokens = sign symbol line :: rest := by
  -- Either the symbol is in front and the words behind it are left, or there is a fault.
  unfold expect
  split
  · rename_i starts
    obtain ⟨line, after, rfl⟩ := startsWith_iff.mp starts
    simp [eq_comm]
  · rename_i differs
    simp only [unexpected, reduceCtorEq, false_iff, not_exists]
    rintro line rfl
    exact differs (startsWith_iff.mpr ⟨line, rest, rfl⟩)

@[simp] theorem expect_sign (symbol : Symbol) (line : Nat) (rest : List Token) :
    expect symbol (sign symbol line :: rest) = .ok rest :=
  -- The symbol that is expected is the one in front.
  expect_eq_ok.mpr ⟨line, rfl⟩

/-- A name is read when it is the first word and not reserved. -/
theorem name_eq_ok {expected : Expectation} {name : String} :
    Source.name expected tokens = .ok (name, rest) ↔
      ∃ line, tokens = word name line :: rest ∧ isReserved name = false := by
  constructor
  · intro read
    -- A first word of another kind is refused, and so is a reserved one.
    unfold Source.name at read
    split at read
    · split at read
      · simp [unexpected] at read
      · rename_i line _ free
        obtain ⟨rfl, rfl⟩ := Prod.mk.inj (Except.ok.inj read)
        exact ⟨line, rfl, by simpa using free⟩
    · simp [unexpected] at read
  · -- In the other direction the reader computes, as the name is there and free.
    rintro ⟨line, rfl, free⟩
    simp [Source.name, free]

/-- A type is read when its keyword is the first word. -/
theorem dataType_eq_ok {type : DataType} :
    dataType tokens = .ok (type, rest) ↔ ∃ line, tokens = word type.keyword line :: rest := by
  constructor
  · intro read
    -- The first word names a type only by the keyword of this type.
    unfold dataType at read
    split at read
    · split at read
      · rename_i line _ _ _ found
        obtain ⟨rfl, rfl⟩ := Prod.mk.inj (Except.ok.inj read)
        exact ⟨line, by rw [DataType.ofKeyword?_eq_some.mp found]⟩
      · simp at read
    · simp [unexpected] at read
  · -- In the other direction the keyword is looked up, and names the type.
    rintro ⟨line, rfl⟩
    simp [dataType]

end Grammar

end Shading

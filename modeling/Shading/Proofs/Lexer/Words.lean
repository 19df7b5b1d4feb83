import Shading.Proofs.Binary32.Exact
import Shading.Proofs.Lexer.Spelling

/-! What the words of a source hold: names that are names, and numbers within their bounds. -/

namespace Shading

/-- A word holds what the words of its kind can hold. -/
def Lexeme.IsValid : Lexeme → Prop
  | .identifier name => IsName name
  | .integer _ value => value ≤ Cursor.largestInteger
  | .float _ value => value.isFinite = true ∧ value.isNegative = false
  | _ => True

namespace Cursor

variable {cursor : Cursor} {token : Token}

/-- A run of name characters that starts as one is a name or a truth value. -/
theorem nameLexeme_valid {c : Char} {rest : List Char} (starts : startsName c = true) :
    (nameLexeme (String.ofList ((c :: rest).takeWhile continuesName))).IsValid := by
  have continues := continues_of_startsName starts
  -- The two truth values are spelled like names, and are told apart first.
  unfold nameLexeme
  split
  · trivial
  · split
    · trivial
    · rename_i noTrue noFalse
      refine ⟨⟨c, rest.takeWhile continuesName, ?_, starts⟩, ?_, noTrue, noFalse⟩
      · simp [continues]
      · -- The run was taken while its characters continue a name.
        intro d member
        rw [String.toList_ofList] at member
        exact List.all_eq_true.mp List.all_takeWhile d member

/-- Digits are read as an integer within its bounds. -/
theorem integer_valid {digits : List Char} {text : String} {line : Nat} {error : LexError}
    (read : (if Decimal.ofDigits digits ≤ largestInteger
      then .ok ⟨.integer text (Decimal.ofDigits digits), line⟩ else .error error) =
        Except.ok token) : token.lexeme.IsValid := by
  -- Beyond the bounds there is a fault, and no word.
  split at read
  · rename_i small
    cases read
    exact small
  · cases read

/-- Numbers are read within their bounds. -/
theorem number_valid (read : cursor.number.result = .ok token) : token.lexeme.IsValid := by
  rcases reached : cursor.rest.dropWhile Char.isDigit with _ | ⟨c, rest⟩
  · -- Any other character ends the digits as the end of the source does.
    simp only [number, reached] at read
    exact integer_valid read
  · by_cases point : c = '.'
    · subst point
      -- Whether there is a number is decided first, since computing it would lead far.
      rcases Option.eq_none_or_eq_some (Binary32.ofDecimal?
        (.ofParts (cursor.rest.takeWhile Char.isDigit) (rest.takeWhile Char.isDigit)))
        with tooLarge | ⟨value, found⟩
      · simp only [number, reached, tooLarge, reduceCtorEq] at read
      · obtain ⟨finite, unsigned, -⟩ := Binary32.ofDecimal?_eq_some_iff.mp found
        simp only [number, reached, found] at read
        obtain rfl := Except.ok.inj read
        exact ⟨finite, unsigned⟩
    · simp only [number, reached] at read
      split at read
      · rename_i same
        exact absurd (List.cons.inj same).1 point
      · exact integer_valid read

/-- A symbol holds nothing but itself. -/
theorem symbol_valid {c : Char} {rest : List Char} (read : (cursor.symbol c rest).result = .ok token) :
    token.lexeme.IsValid := by
  -- Symbols have no values, and a fault is no word.
  unfold symbol at read
  dsimp only at read
  split at read
  · cases read
    trivial
  · split at read
    · cases read
      trivial
    · cases read

/-- Every word that is read holds what the words of its kind can hold. -/
theorem word_valid (read : cursor.word.result = .ok token) : token.lexeme.IsValid := by
  -- The first character decides which kind of word there is.
  unfold word at read
  split at read
  · cases read
    trivial
  · rename_i here
    split at read
    · rename_i starts
      cases read
      rw [here]
      exact nameLexeme_valid starts
    · split at read
      · exact number_valid read
      · exact symbol_valid read

end Cursor

/-- The words of a source hold what words can hold. -/
theorem tokenize_valid {source : String} {tokens : List Token}
    (read : tokenize source = .ok tokens) : ∀ token ∈ tokens, token.lexeme.IsValid := by
  obtain ⟨words, line, rfl, all⟩ := Cursor.tokensFrom_eq_ok (Nat.lt_succ_self _) read
  intro token member
  -- All words but the last one were read by a call, and the last one is the end.
  rcases List.mem_append.mp member with member | last
  · obtain ⟨-, place, readHere⟩ := all token (by simpa using member)
    unfold Cursor.next at readHere
    dsimp only at readHere
    split at readHere
    · -- A gap that never ends gives no word.
      cases readHere
    · exact Cursor.word_valid readHere
  · obtain rfl : token = ⟨.endOfFile, line⟩ := by simpa using last
    trivial

end Shading

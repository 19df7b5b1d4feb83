import Shading.Language.Lexer
import Shading.Proofs.Grammar.Unit

/-! Cutting a source into words goes on up to its end, which comes last and only once. -/

namespace Shading

namespace Cursor

/-- Skipping a gap takes characters from the front. -/
theorem skipGap_le (gap : Gap) (line : Nat) (rest : List Char) :
    (skipGap gap line rest).cursor.rest.length ≤ rest.length := by
  -- By the recursion of the skipping, which drops a character in each branch.
  fun_induction skipGap gap line rest with
  | case4 => simp
  | case9 | case10 => simp
  | _ => grind

/-- A number takes its first digit. -/
theorem number_shorter {cursor : Cursor} {c : Char} {rest : List Char}
    (here : cursor.rest = c :: rest) (digit : c.isDigit = true) :
    cursor.number.next.rest.length < cursor.rest.length := by
  -- The first digit at least is dropped, and the point behind the digits with its own.
  have fewer : (cursor.rest.dropWhile Char.isDigit).length < cursor.rest.length := by
    have := (List.dropWhile_suffix Char.isDigit (l := rest)).length_le
    simp only [here, List.dropWhile_cons, digit, if_true, List.length_cons]
    omega
  unfold number
  split
  · rename_i fraction reached
    have := (List.dropWhile_suffix Char.isDigit (l := fraction)).length_le
    rw [reached, List.length_cons] at fewer
    simp only
    omega
  · exact fewer

/-- A symbol that is one takes its characters. -/
theorem symbol_shorter {cursor : Cursor} {c : Char} {rest : List Char} {token : Token}
    (here : cursor.rest = c :: rest) (read : (cursor.symbol c rest).result = .ok token) :
    (cursor.symbol c rest).next.rest.length < cursor.rest.length := by
  -- A symbol of one character takes it, and one of two characters takes both.
  have alone : (Symbol.single? c).isSome →
      rest.length < cursor.rest.length := fun _ => by simp [here]
  rcases rest with _ | ⟨d, rest⟩
  · cases single : Symbol.single? c <;> simp_all [symbol]
  · cases double : Symbol.double? c d
    · cases single : Symbol.single? c <;> simp_all [symbol]
    · simp only [symbol, double, Option.map_some, here, List.length_cons]
      omega

/-- Every word but the end of the source takes a character. -/
theorem word_shorter {cursor : Cursor} {token : Token} (read : cursor.word.result = .ok token)
    (notEnd : token.isEnd = false) : cursor.word.next.rest.length < cursor.rest.length := by
  -- Without characters there is only the end.
  rcases here : cursor.rest with _ | ⟨c, rest⟩
  · simp only [word, here, Except.ok.injEq] at read
    simp [← read, Token.isEnd] at notEnd
  · rw [← here]
    -- The first character tells a name, a number or a symbol, and each of them takes it.
    unfold word at read ⊢
    simp only [here] at read ⊢
    split at read
    · rename_i starts
      have continues : continuesName c = true := by
        unfold startsName at starts
        unfold continuesName
        grind [Char.isAlphanum]
      have := (List.dropWhile_suffix continuesName (l := rest)).length_le
      simp only [starts, if_true, List.dropWhile_cons, continues, List.length_cons]
      omega
    · rename_i noName
      rw [if_neg noName]
      split at read
      · rename_i digit
        rw [if_pos digit, ← here]
        exact number_shorter here digit
      · -- What is neither a name nor a number is a symbol, since there is no fault.
        rename_i noDigit
        rw [if_neg noDigit, ← here]
        exact symbol_shorter here read

/-- Every word but the end of the source takes a character, after a gap as well. -/
theorem next_shorter {cursor : Cursor} {token : Token} (read : cursor.next.result = .ok token)
    (notEnd : token.isEnd = false) : cursor.next.next.rest.length < cursor.rest.length := by
  -- A gap leaves no more characters than there were.
  have skipped := skipGap_le .blanks cursor.line cursor.rest
  unfold next at read ⊢
  simp only at read ⊢
  split at read
  · simp at read
  · rename_i closed
    have := word_shorter read notEnd
    omega

/-- Words are read after those that were read before. -/
theorem tokensFrom_eq_ok {limit : Nat} {cursor : Cursor} {earlier tokens : List Token}
    (enough : cursor.rest.length < limit) (read : tokensFrom limit cursor earlier = .ok tokens) :
    ∃ words line, tokens = earlier.reverse ++ words ++ [⟨.endOfFile, line⟩] ∧
      ∀ token ∈ words, token.isEnd = false ∧ ∃ place : Cursor, place.next.result = .ok token := by
  -- By the limit, which exceeds the characters that are left.
  induction limit generalizing cursor earlier with
  | zero => omega
  | succ limit ih =>
    simp only [tokensFrom] at read
    split at read
    · simp at read
    · rename_i token readToken
      split at read
      · -- The word that ends the source ends the words.
        rename_i isEnd
        obtain ⟨lexeme, line⟩ := token
        obtain rfl : lexeme = .endOfFile := by simpa [Token.isEnd] using isEnd
        exact ⟨[], line, by simpa using (Except.ok.inj read).symm, by simp⟩
      · rename_i notEnd
        have notEnd : token.isEnd = false := by simpa using notEnd
        -- Any other word takes a character, and so the limit still exceeds what is left.
        have fewer := next_shorter readToken notEnd
        obtain ⟨words, line, rfl, all⟩ := ih (by omega) read
        refine ⟨token :: words, line, by simp, ?_⟩
        intro other member
        rcases List.mem_cons.mp member with rfl | member
        · exact ⟨notEnd, cursor, readToken⟩
        · exact all other member

end Cursor

/-- The words of a source end with the word for its end, which is the only one of its kind. -/
theorem tokenize_endsOnce {source : String} {tokens : List Token}
    (read : tokenize source = .ok tokens) : Grammar.EndsOnce tokens := by
  -- A source is read from its start with no earlier words.
  obtain ⟨words, line, rfl, all⟩ := Cursor.tokensFrom_eq_ok (Nat.lt_succ_self _) read
  exact ⟨words, line, by simp, fun token member => (all token member).1⟩

end Shading

import Shading.Proofs.Lexer.LongestWords

/-! Reading on, after faults as well: every call passes something or is stuck for good. -/

namespace Shading

namespace Cursor

/-- What a call meets behind a gap, at the place from which these characters remain. -/
inductive Meets (line : Nat) : List Char → Reading → Prop
  | ended : Meets line [] ⟨.ok ⟨.endOfFile, line⟩, ⟨[], line⟩⟩
  | word {text after : List Char} {lexeme : Lexeme} :
    IsWord text (some lexeme) →
    Meets line (text ++ after) ⟨.ok ⟨lexeme, line⟩, ⟨after, line⟩⟩
  -- A number out of bounds is passed all the same.
  | number {text after : List Char} :
    IsWord text none →
    Meets line (text ++ after)
      ⟨.error ⟨line, .invalidNumber (String.ofList text)⟩, ⟨after, line⟩⟩
  -- A comment that nothing closes takes the rest of the source.
  | comment {body : List Char} :
    ¬ Closes body →
    Meets line ('/' :: '*' :: body)
      ⟨.error ⟨line, .unterminatedComment⟩, ⟨[], line + body.count '\n'⟩⟩
  | character {c : Char} {after : List Char} :
    Meets line (c :: after) ⟨.error ⟨line, .unexpectedCharacter c⟩, ⟨c :: after, line⟩⟩

variable {cursor : Cursor} {place : List Char} {line : Nat}

/-- A fault behind a whole gap is met there. -/
theorem Faulty.meets {gap : List Char} {cause : LexError.Cause} (faulty : Faulty place cause)
    (isWhole : IsWholeGap gap place) (line : Nat) : Meets line place (next ⟨place, line⟩) := by
  -- Each fault is found by its own step of the call: the gap, the choice of a word, or its value.
  have stops := fun closed => isWhole.skip_stops (faulty.noComment closed) line
  cases faulty with
  | @unclosed body unclosed =>
    have read : next ⟨'/' :: '*' :: body, line⟩ =
        ⟨.error ⟨line, .unterminatedComment⟩, ⟨[], line + body.count '\n'⟩⟩ := by
      have opening : skipGap .blanks line ('/' :: '*' :: body) =
          skipGap (.blockComment line) line body := rfl
      simp [next, opening, skipGap_unclosed unclosed]
    rw [read]
    exact .comment unclosed
  | @noWord c after noWord =>
    have read : next ⟨c :: after, line⟩ =
        ⟨.error ⟨line, .unexpectedCharacter c⟩, ⟨c :: after, line⟩⟩ := by
      -- Nothing is passed, so that the next call meets the same character.
      simp [next, stops, word_refused noWord]
    rw [read]
    exact .character
  -- Nothing longer is a word, so that the number is read as it stands.
  | @number text after isLongest =>
    have read : next ⟨text ++ after, line⟩ =
        ⟨.error ⟨line, .invalidNumber (String.ofList text)⟩, ⟨after, line⟩⟩ := by
      simp [next, stops, isLongest.word_eq, outcome]
    rw [read]
    exact .number isLongest.isWord

/-- Every call passes a whole gap, which may be empty, and meets something behind it. -/
theorem next_meets (cursor : Cursor) :
    ∃ gap place, cursor.rest = gap ++ place ∧ IsWholeGap gap place ∧
      Meets (cursor.line + gap.count '\n') place cursor.next := by
  obtain ⟨gap, place, same, isWhole⟩ := exists_wholeGap cursor.rest
  refine ⟨gap, place, same, isWhole, ?_⟩
  have moved : cursor.next = next ⟨place, cursor.line + gap.count '\n'⟩ := by
    rw [← isWhole.isGap.next_eq, ← same]
  rw [moved]
  -- Behind a whole gap there is the end, a fault or a longest word.
  rcases isWhole.cases_after with rfl | ⟨cause, faulty⟩ |
    ⟨noComment, text, lexeme, after, rfl, isLongest⟩
  · exact .ended
  · exact faulty.meets isWhole _
  · -- No comment opens with the word, so that nothing more is skipped.
    have read : ∀ line, next ⟨text ++ after, line⟩ = ⟨.ok ⟨lexeme, line⟩, ⟨after, line⟩⟩ := by
      intro line
      simp [next, isWhole.skip_stops noComment, isLongest.word_eq, outcome]
    rw [read]
    exact .word isLongest.isWord

/-- A result of a call that has passed what it is about: a word, or a fault but for a lone character. -/
def Passes : Except LexError Token → Prop
  | .ok token => token.isEnd = false
  | .error fault => ∀ c, fault.cause ≠ .unexpectedCharacter c

/-- A call leaves the end of what it was called on. -/
theorem next_suffix (cursor : Cursor) : cursor.next.next.rest <:+ cursor.rest := by
  obtain ⟨gap, place, same, -, meets⟩ := cursor.next_meets
  have behind : cursor.next.next.rest <:+ place := by
    generalize cursor.next = reading at meets
    -- What was met is passed, or the cursor stays in front of it.
    cases meets with
    | ended | character => exact List.suffix_refl _
    | word | number => exact List.suffix_append _ _
    | comment => exact List.nil_suffix
  rw [same]
  exact behind.trans (List.suffix_append _ _)

/-- A call that passes something moves forward. -/
theorem next_moves (passes : Passes cursor.next.result) :
    cursor.next.next.rest.length < cursor.rest.length := by
  obtain ⟨gap, place, same, -, meets⟩ := cursor.next_meets
  have behind : cursor.next.next.rest.length < place.length := by
    generalize cursor.next = reading at meets passes
    cases meets with
    | ended => cases passes
    | word isWord | number isWord =>
      -- A word has a character, whether it is within the bounds or not.
      have nonempty := List.length_pos_iff.mpr isWord.visible.1
      simp only [List.length_append]
      omega
    | comment => simp
    | character => exact absurd rfl (passes _)
  -- The gap in front may be empty, and then the word alone makes the difference.
  rw [same, List.length_append]
  omega

/-- A call that passes nothing gives the same again, and leaves the cursor where it is then. -/
theorem next_stuck (stuck : ¬ Passes cursor.next.result) :
    cursor.next.next.next = cursor.next := by
  obtain ⟨gap, place, same, isWhole, meets⟩ := cursor.next_meets
  -- Nothing but the gap was skipped, and no gap stands behind it.
  have moved : next ⟨place, cursor.line + gap.count '\n'⟩ = cursor.next := by
    rw [← isWhole.isGap.next_eq, ← same]
  have stays : cursor.next.next = ⟨place, cursor.line + gap.count '\n'⟩ := by
    generalize cursor.next = reading at meets stuck
    -- Only the end and a character that starts no word pass nothing.
    cases meets with
    | ended | character => rfl
    | word isWord =>
      refine absurd ?_ stuck
      simp only [Passes, Token.isEnd, beq_eq_false_iff_ne]
      rintro rfl
      exact IsWord.not_endOfFile isWord
    | number | comment => exact absurd (fun _ same => by cases same) stuck
  rw [stays, moved]

/-- The cursor after a number of calls, whatever they gave. -/
def afterCalls (start : Cursor) : Nat → Cursor
  | 0 => start
  | calls + 1 => (start.afterCalls calls).next.next

/-- What the call after a number of calls gives. -/
def answer (start : Cursor) (calls : Nat) : Except LexError Token :=
  (start.afterCalls calls).next.result

variable {start : Cursor}

/-- Calls on what a first call leaves are the calls after it. -/
theorem afterCalls_next (start : Cursor) (calls : Nat) :
    start.next.next.afterCalls calls = start.afterCalls (calls + 1) := by
  -- The first call can be taken off at the front as well as at the back.
  induction calls with
  | zero => rfl
  | succ calls ih => simp only [afterCalls, ih]

/-- Whatever the calls gave, the end of the source remains. -/
theorem afterCalls_suffix (start : Cursor) (calls : Nat) :
    (start.afterCalls calls).rest <:+ start.rest := by
  -- Each call leaves a suffix of what was there before it.
  induction calls with
  | zero => exact List.suffix_refl _
  | succ calls ih => exact (next_suffix _).trans ih

/-- After a call that passes nothing, all calls give the same and leave the same cursor. -/
theorem afterCalls_stuck {calls : Nat} (stuck : ¬ Passes (start.answer calls)) {later : Nat}
    (notBefore : calls ≤ later) : start.answer later = start.answer calls ∧
      start.afterCalls (later + 1) = start.afterCalls (calls + 1) := by
  -- The reading as a whole is the same, and so are the result and the cursor in it.
  have same : (start.afterCalls later).next = (start.afterCalls calls).next := by
    induction notBefore with
    | refl => rfl
    | step _ ih => rw [afterCalls, ih, next_stuck stuck]
  exact ⟨congrArg Reading.result same, congrArg Reading.next same⟩

/-- The words that calls give up to the end, or the fault that they meet before. -/
inductive Yields : Cursor → Except LexError (List Token) → Prop
  | ended {cursor : Cursor} {token : Token} :
    cursor.next.result = .ok token →
    token.isEnd = true →
    Yields cursor (.ok [token])
  | failed {cursor : Cursor} {fault : LexError} :
    cursor.next.result = .error fault →
    Yields cursor (.error fault)
  | next {cursor : Cursor} {token : Token} {result : Except LexError (List Token)} :
    cursor.next.result = .ok token →
    token.isEnd = false →
    Yields cursor.next.next result →
    Yields cursor (result.map (token :: ·))

namespace Yields

variable {result result' : Except LexError (List Token)} {tokens : List Token}

/-- There is one outcome only. -/
theorem unique (yields : Yields cursor result) (yields' : Yields cursor result') :
    result = result' := by
  -- Each call has one answer, which tells by which rule the outcome goes on.
  induction yields generalizing result' with
  | ended read isEnd | failed read => cases yields' <;> simp_all
  | next read notEnd _ ih =>
    cases yields' with
    | ended read' isEnd => simp_all
    | failed read' => simp_all
    | next read' _ more =>
      rw [read] at read'
      obtain rfl := Except.ok.inj read'
      rw [ih more]

/-- With more calls than characters, the words are read up to the end or the first fault. -/
theorem exists_of_limit {limit : Nat} (enough : cursor.rest.length < limit) (earlier : List Token) :
    ∃ result, Yields cursor result ∧
      tokensFrom limit cursor earlier = result.map (earlier.reverse ++ ·) := by
  -- By the limit, which has one step for the end besides those for the characters.
  induction limit generalizing cursor earlier with
  | zero => omega
  | succ limit ih =>
    cases read : cursor.next.result with
    | error fault => exact ⟨_, .failed read, by simp [tokensFrom, read, Except.map]⟩
    | ok token =>
      cases isEnd : token.isEnd with
      | true => exact ⟨_, .ended read isEnd, by simp [tokensFrom, read, isEnd, Except.map]⟩
      | false =>
        -- The word takes a character, so that the limit goes on covering those that are left.
        have passes : Passes cursor.next.result := by
          rw [read]
          exact isEnd
        have fewer : cursor.next.next.rest.length < limit := by
          have moves := next_moves passes
          omega
        obtain ⟨result, yields, same⟩ := ih fewer (token :: earlier)
        refine ⟨_, .next read isEnd yields, ?_⟩
        simp only [tokensFrom, read, isEnd, Bool.false_eq_true, if_false, same]
        cases result <;> simp [Except.map]

/-- The words are the answers to the calls, up to the one that ends the source or to a fault. -/
theorem answers (yields : Yields start result) :
    ∃ words : List Token, words.length ≤ start.rest.length ∧
      (∀ (call : Nat) (within : call < words.length),
        start.answer call = .ok words[call] ∧ words[call].isEnd = false) ∧
      ((∃ line, start.answer words.length = .ok ⟨.endOfFile, line⟩ ∧
          result = .ok (words ++ [⟨.endOfFile, line⟩])) ∨
        ∃ fault, start.answer words.length = .error fault ∧ result = .error fault) := by
  have none : ∀ {cursor : Cursor} (call : Nat) (within : call < ([] : List Token).length),
      cursor.answer call = .ok ([] : List Token)[call] ∧ ([] : List Token)[call].isEnd = false :=
    fun _ within => absurd within (Nat.not_lt_zero _)
  -- Along the calls: the end and a fault are the only last answers.
  induction yields with
  | @ended cursor token read isEnd =>
    obtain ⟨lexeme, line⟩ := token
    obtain rfl : lexeme = .endOfFile := by simpa [Token.isEnd] using isEnd
    exact ⟨[], Nat.zero_le _, none, .inl ⟨line, read, rfl⟩⟩
  | failed read => exact ⟨[], Nat.zero_le _, none, .inr ⟨_, read, rfl⟩⟩
  | @next cursor token result read notEnd _ ih =>
    obtain ⟨words, few, all, last⟩ := ih
    have passes : Passes cursor.next.result := by
      rw [read]
      exact notEnd
    have fewer := next_moves passes
    -- The calls of the induction are one call later.
    have shifted : ∀ calls, cursor.next.next.answer calls = cursor.answer (calls + 1) := by
      intro calls
      simp only [answer, afterCalls_next]
    refine ⟨token :: words, by simp only [List.length_cons]; omega, ?_, ?_⟩
    · intro call within
      cases call with
      | zero => exact ⟨read, notEnd⟩
      | succ call =>
        rw [← shifted]
        exact all call (by simpa using within)
    · rw [List.length_cons, ← shifted]
      -- The last answer is that of the calls behind the first one.
      rcases last with ⟨line, ended, rfl⟩ | ⟨fault, failed, rfl⟩
      · exact .inl ⟨line, ended, rfl⟩
      · exact .inr ⟨fault, failed, rfl⟩

end Yields

/-- A source is cut into what calls from its start give. -/
theorem yields_tokenize (source : String) : Yields (ofSource source) (tokenize source) := by
  -- One call more than there are characters is always enough.
  have enough : (ofSource source).rest.length < source.toList.length + 1 := Nat.lt_succ_self _
  obtain ⟨result, yields, same⟩ := Yields.exists_of_limit enough []
  have whole : tokenize source = result := by
    rw [tokenize, same]
    cases result <;> rfl
  rwa [whole]

/--
Calls on the cursor of a source move forward, or are stuck for good.

A call never goes back, and it moves on unless it meets the end or a character that starts no word.
From then on every call gives the same and changes nothing.
So a source is cut into one word for each character at most, and into the end, which comes last.
-/
theorem calls_progress (source : String) :
    (∀ calls, ((ofSource source).afterCalls (calls + 1)).rest <:+
        ((ofSource source).afterCalls calls).rest ∧
      ((ofSource source).afterCalls calls).rest <:+ source.toList) ∧
    (∀ calls, Passes ((ofSource source).answer calls) →
      ((ofSource source).afterCalls (calls + 1)).rest.length <
        ((ofSource source).afterCalls calls).rest.length) ∧
    (∀ calls, ¬ Passes ((ofSource source).answer calls) → ∀ later, calls ≤ later →
      (ofSource source).answer later = (ofSource source).answer calls ∧
        (ofSource source).afterCalls (later + 1) = (ofSource source).afterCalls (calls + 1)) ∧
    ∃ words : List Token, words.length ≤ source.toList.length ∧
      (∀ (call : Nat) (within : call < words.length),
        (ofSource source).answer call = .ok words[call] ∧ words[call].isEnd = false) ∧
      ((∃ line, (ofSource source).answer words.length = .ok ⟨.endOfFile, line⟩ ∧
          tokenize source = .ok (words ++ [⟨.endOfFile, line⟩])) ∨
        ∃ fault, (ofSource source).answer words.length = .error fault ∧
          tokenize source = .error fault) := by
  -- Each call was dealt with on its own, and the words are the answers to all of them.
  refine ⟨fun calls => ⟨next_suffix _, afterCalls_suffix (ofSource source) calls⟩, fun _ => next_moves,
    fun _ stuck _ => afterCalls_stuck stuck, ?_⟩
  exact (yields_tokenize source).answers

end Cursor

end Shading

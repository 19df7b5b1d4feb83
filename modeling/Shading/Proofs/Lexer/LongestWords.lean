import Shading.Proofs.Lexer.Gaps

/-! A source is its gaps and its words, each of them as long as it can be, up to the first fault. -/

namespace Shading

namespace Cursor

/-- The word of an integer, if it is within the bounds. -/
def integerWord? (digits : List Char) : Option Lexeme :=
  if Decimal.ofDigits digits ≤ largestInteger
    then some (.integer (String.ofList digits) (Decimal.ofDigits digits)) else none

/-- The word of a float, if the format has a finite number near it. -/
def floatWord? (whole fraction : List Char) : Option Lexeme :=
  (Binary32.ofDecimal? (.ofParts whole fraction)).map
    (.float (String.ofList (whole ++ '.' :: fraction)))

/-- Characters that form a word, and the word they form unless it is a number out of bounds. -/
inductive IsWord : List Char → Option Lexeme → Prop
  | name {c : Char} {more : List Char} :
    startsName c = true →
    (∀ d ∈ more, continuesName d = true) →
    IsWord (c :: more) (some (nameLexeme (String.ofList (c :: more))))
  -- Digits form a word even where their value is out of bounds; the word is `none` then.
  | integer {digits : List Char} :
    digits ≠ [] →
    (∀ c ∈ digits, c.isDigit = true) →
    IsWord digits (integerWord? digits)
  | float {whole fraction : List Char} :
    whole ≠ [] →
    (∀ c ∈ whole, c.isDigit = true) →
    (∀ c ∈ fraction, c.isDigit = true) →
    IsWord (whole ++ '.' :: fraction) (floatWord? whole fraction)
  | symbol (s : Symbol) :
    IsWord s.spelling.toList (some (.symbol s))

/-- Characters that form a word, as no longer part of what starts with them does. -/
structure IsLongestWord (text : List Char) (word : Option Lexeme) (after : List Char) : Prop where
  isWord : IsWord text word
  longest : ∀ other word, other <+: text ++ after → IsWord other word →
    other.length ≤ text.length

/-- The line of what follows the given start of a source. -/
def lineAt (before : List Char) : Nat :=
  1 + before.count '\n'

/-- A word of a source and the gap in front of it. -/
structure Piece where
  gap : List Char
  token : Token

/-- The characters of the word. -/
def Piece.text (piece : Piece) : List Char :=
  piece.token.lexeme.text.toList

/-- The characters of the gap and of the word. -/
def Piece.chars (piece : Piece) : List Char :=
  piece.gap ++ piece.text

/-- Pieces in order, and what stands behind the last one. -/
def joined (pieces : List Piece) (last : List Char) : List Char :=
  pieces.flatMap Piece.chars ++ last

/-- A piece is what stands between what is before it and what is after it. -/
structure Piece.Fits (before : List Char) (piece : Piece) (after : List Char) : Prop where
  gap : IsWholeGap piece.gap (piece.text ++ after)
  -- A slash in front of a star is no operator.
  noComment : ¬ ['/', '*'] <+: piece.text ++ after
  word : IsLongestWord piece.text (some piece.token.lexeme) after
  line : piece.token.line = lineAt (before ++ piece.gap)

/-- Each piece fits between the ones before it and those after it. -/
inductive AllFit : List Char → List Piece → List Char → Prop
  | none {before last : List Char} : AllFit before [] last
  | piece {before last : List Char} {piece : Piece} {pieces : List Piece} :
    piece.Fits before (joined pieces last) →
    AllFit (before ++ piece.chars) pieces last →
    AllFit before (piece :: pieces) last

/-- What is wrong with characters behind a whole gap. -/
inductive Faulty : List Char → LexError.Cause → Prop
  | unclosed {rest : List Char} :
    ¬ Closes rest →
    Faulty ('/' :: '*' :: rest) .unterminatedComment
  | noWord {c : Char} {rest : List Char} :
    (∀ more word, ¬ IsWord (c :: more) word) →
    Faulty (c :: rest) (.unexpectedCharacter c)
  | number {text after : List Char} :
    IsLongestWord text none after →
    Faulty (text ++ after) (.invalidNumber (String.ofList text))

variable {line : Nat} {c : Char} {text rest after before last : List Char} {word : Option Lexeme}

/-- A word of a text that has one, and a fault of a number out of bounds. -/
def outcome (line : Nat) (text : List Char) : Option Lexeme → Except LexError Token
  | some lexeme => .ok ⟨lexeme, line⟩
  | none => .error ⟨line, .invalidNumber (String.ofList text)⟩

/-- A name is the text of its word. -/
theorem nameLexeme_text (name : String) : (nameLexeme name).text = name := by
  -- Truth values are spelled as they are named.
  unfold nameLexeme
  split
  · simp_all [Lexeme.text]
  · split <;> simp_all [Lexeme.text]

/-- The character of a symbol of one character is this. -/
theorem spelling_of_single? {s : Symbol} (single : Symbol.single? c = some s) :
    s.spelling.toList = [c] := by
  -- The table has one symbol for each character.
  unfold Symbol.single? at single
  split at single <;> cases single <;> rfl

/-- The characters of a symbol of two characters are these. -/
theorem spelling_of_double? {d : Char} {s : Symbol} (double : Symbol.double? c d = some s) :
    s.spelling.toList = [c, d] := by
  -- The table has one symbol for each pair of characters.
  unfold Symbol.double? at double
  split at double <;> cases double <;> rfl

namespace IsLongestWord

/-- The first character behind a word does not make it longer. -/
theorem not_longer {d : Char} {other : Option Lexeme} (isLongest : IsLongestWord text word after)
    (first : d ∈ after.head?) : ¬ IsWord (text ++ [d]) other := by
  -- A word one character longer is still at the front of what was there.
  obtain ⟨later, rfl⟩ := List.head?_eq_some_iff.mp first
  intro longer
  have bounded := isLongest.longest (text ++ [d]) other ⟨later, by simp⟩ longer
  rw [List.length_append, List.length_singleton] at bounded
  omega

/-- The longest word is the one that is read. -/
theorem word_eq (isLongest : IsLongestWord text word after) (line : Nat) :
    Cursor.word ⟨text ++ after, line⟩ = ⟨outcome line text word, ⟨after, line⟩⟩ := by
  have isWord := isLongest.isWord
  cases isWord with
  | @name c more starts continues =>
    -- Whatever could go on with the word would make a longer one.
    have ends : EndsRun after := by
      intro d first
      rw [← Bool.not_eq_true]
      intro continuesHere
      have allContinue : ∀ e ∈ more ++ [d], continuesName e = true := by
        simpa [continuesHere, or_imp, forall_and] using continues
      exact isLongest.not_longer first (.name starts allContinue)
    refine word_run starts ?_ ends
    simpa [continues_of_startsName starts] using continues
  | @integer digits nonempty all =>
    have stop : ∀ c ∈ after.head?, c.isDigit = false := by
      intro d first
      rw [← Bool.not_eq_true]
      intro digit
      refine isLongest.not_longer first (.integer (by simp) ?_)
      simpa [digit, or_imp, forall_and] using all
    -- Digits and a point are a float, even without digits behind it.
    have noPoint : '.' ∉ after.head? := by
      intro first
      have noFraction : ∀ c ∈ ([] : List Char), c.isDigit = true := by simp
      exact isLongest.not_longer first (.float nonempty all noFraction)
    have read := number_integer all stop noPoint line
    obtain ⟨c, rest, rfl⟩ := List.exists_cons_of_ne_nil nonempty
    rw [List.cons_append] at *
    rw [word_eq_number (all c (by simp)), read]
    unfold integerWord?
    split <;> rfl
  | @float whole fraction nonempty allWhole allFraction =>
    have stop : ∀ c ∈ after.head?, c.isDigit = false := by
      intro d first
      rw [← Bool.not_eq_true]
      intro digit
      have allDigits : ∀ c ∈ fraction ++ [d], c.isDigit = true := by
        simpa [digit, or_imp, forall_and] using allFraction
      -- A further digit would belong to the fraction.
      have longer := IsWord.float nonempty allWhole allDigits
      rw [← List.cons_append, ← List.append_assoc] at longer
      exact isLongest.not_longer first longer
    have read := number_float allWhole allFraction stop line
    obtain ⟨c, rest, rfl⟩ := List.exists_cons_of_ne_nil nonempty
    rw [List.append_assoc, List.cons_append] at *
    rw [word_eq_number (allWhole c (by simp)), read]
    unfold floatWord?
    generalize Binary32.ofDecimal? (.ofParts (c :: rest) fraction) = value
    cases value <;> rfl
  | symbol s =>
    cases after with
    | nil => cases s <;> rfl
    | cons d after =>
      -- Two characters that are a symbol together are longer than the first of them.
      have alone : ∀ c, s.spelling.toList = [c] → Symbol.double? c d = none := by
        intro c single
        rw [Option.eq_none_iff_forall_ne_some]
        intro longer double
        have isWord := IsWord.symbol longer
        rw [spelling_of_double? double, ← List.singleton_append, ← single] at isWord
        exact isLongest.not_longer rfl isWord
      cases s <;> first
        | exact word_single rfl (alone _ rfl)
        | rfl

end IsLongestWord

namespace IsWord

/-- A text is its own longest part. -/
theorem isLongest (isWord : IsWord text word) : IsLongestWord text word [] :=
  -- Nothing follows that could belong to a longer word.
  ⟨isWord, fun other _ isPart _ => by simpa using isPart.length_le⟩

/-- What word a text is follows from the text. -/
theorem unique {other : Option Lexeme} (isWord : IsWord text word) (isOther : IsWord text other) :
    word = other := by
  -- The text is read as either word, and it is only read as one.
  have same : outcome 1 text word = outcome 1 text other :=
    congrArg Reading.result ((isWord.isLongest.word_eq 1).symm.trans (isOther.isLongest.word_eq 1))
  cases word <;> cases other <;> simp_all [outcome]

/-- A word keeps the text that it is read from. -/
theorem text_eq {lexeme : Lexeme} (isWord : IsWord text (some lexeme)) :
    lexeme.text.toList = text := by
  generalize same : some lexeme = word at isWord
  -- Only numbers are kept apart from their values; all other words are their texts.
  cases isWord with
  | name =>
    obtain rfl := Option.some.inj same
    rw [nameLexeme_text, String.toList_ofList]
  | integer =>
    unfold integerWord? at same
    split at same
    · obtain rfl := Option.some.inj same
      exact String.toList_ofList
    · cases same
  -- The value is read from the text, which is kept beside it.
  | float =>
    obtain ⟨value, -, rfl⟩ := Option.map_eq_some_iff.mp same.symm
    exact String.toList_ofList
  | symbol =>
    obtain rfl := Option.some.inj same
    rfl

/-- No word is the end of a source. -/
theorem not_endOfFile : ¬ IsWord text (some .endOfFile) := by
  intro isWord
  have noText : text = [] := isWord.text_eq.symm
  generalize some Lexeme.endOfFile = word at isWord
  -- The end has no text, and every word has at least one character.
  cases isWord with
  | name => cases noText
  | integer nonempty => exact nonempty noText
  | float nonempty => simp at noText
  | symbol s => cases s <;> cases noText

/-- Words have characters, and no line feed is among them. -/
theorem visible (isWord : IsWord text word) : text ≠ [] ∧ '\n' ∉ text := by
  -- A line feed is neither a letter nor a digit.
  have noName : ∀ {c}, continuesName c = true → '\n' ≠ c := by
    rintro c continues rfl
    exact absurd continues (by decide)
  -- Each kind of word is a run of characters that exclude a line feed.
  cases isWord with
  | name starts continues =>
    refine ⟨List.cons_ne_nil _ _, ?_⟩
    intro member
    rcases List.mem_cons.mp member with same | member
    · exact noName (continues_of_startsName starts) same
    · exact noName (continues _ member) rfl
  | integer nonempty all =>
    exact ⟨nonempty, fun member => noName (continues_of_isDigit (all _ member)) rfl⟩
  | float nonempty allWhole allFraction =>
    refine ⟨by simp, ?_⟩
    intro member
    rcases List.mem_append.mp member with member | member
    · exact noName (continues_of_isDigit (allWhole _ member)) rfl
    · rcases List.mem_cons.mp member with same | member
      · cases same
      · exact noName (continues_of_isDigit (allFraction _ member)) rfl
  | symbol s => cases s <;> decide

/-- Only a number can be out of bounds. -/
theorem starts_digit (isWord : IsWord text none) :
    ∃ c rest, text = c :: rest ∧ c.isDigit = true := by
  generalize noWord : none = word at isWord
  -- Names and symbols are read in any case.
  cases isWord with
  | name => cases noWord
  | @integer digits nonempty all =>
    obtain ⟨c, rest, rfl⟩ := List.exists_cons_of_ne_nil nonempty
    exact ⟨c, rest, rfl, all c (by simp)⟩
  | @float whole fraction nonempty all =>
    obtain ⟨c, rest, rfl⟩ := List.exists_cons_of_ne_nil nonempty
    exact ⟨c, rest ++ '.' :: fraction, rfl, all c (by simp)⟩
  | symbol => cases noWord

/-- What starts a word is a word. -/
theorem first (isWord : IsWord (c :: rest) word) : ∃ word, IsWord [c] word := by
  generalize same : c :: rest = text at isWord
  -- The first character is a name, a digit or a symbol, as what it starts.
  cases isWord with
  | name starts =>
    obtain ⟨rfl, rfl⟩ := List.cons.inj same
    exact ⟨_, .name starts (by simp)⟩
  | integer _ all =>
    subst same
    exact ⟨_, .integer (by simp) (by simpa using all c (by simp))⟩
  | @float whole fraction nonempty all =>
    obtain ⟨d, more, rfl⟩ := List.exists_cons_of_ne_nil nonempty
    obtain rfl := (List.cons.inj same).1
    exact ⟨_, .integer (by simp) (by simpa using all c (by simp))⟩
  | symbol s =>
    -- Every symbol starts with one of those of a single character.
    obtain ⟨single, found⟩ : ∃ single, Symbol.single? c = some single := by
      cases s <;> obtain ⟨rfl, -⟩ := List.cons.inj same <;> exact ⟨_, rfl⟩
    exact ⟨_, spelling_of_single? found ▸ IsWord.symbol single⟩

end IsWord

namespace Piece.Fits

variable {piece : Piece}

/-- A piece is read as its word, and what follows stands on the line behind it. -/
theorem next_eq (fits : piece.Fits before after) :
    next ⟨piece.chars ++ after, lineAt before⟩ =
      ⟨.ok piece.token, ⟨after, lineAt (before ++ piece.chars)⟩⟩ := by
  -- Only the gap in front of the word can move to another line.
  have noFeed : piece.text.count '\n' = 0 :=
    List.count_eq_zero_of_not_mem fits.word.isWord.visible.2
  have skipped : skipGap .blanks (lineAt before) (piece.chars ++ after) =
      ⟨none, ⟨piece.text ++ after, piece.token.line⟩⟩ := by
    rw [Piece.chars, List.append_assoc, fits.gap.isGap.skip, fits.gap.skip_stops fits.noComment,
      fits.line]
    simp [lineAt, Nat.add_assoc]
  have behind : lineAt (before ++ piece.chars) = piece.token.line := by
    simp [fits.line, lineAt, Piece.chars, noFeed]
  simp only [next, skipped, fits.word.word_eq, behind, outcome]

/-- The word of a piece is not the end of the source. -/
theorem notEnd (fits : piece.Fits before after) : piece.token.isEnd = false := by
  -- The end has no characters, and words have some.
  rw [← Bool.not_eq_true]
  intro isEnd
  have ends : piece.token.lexeme = .endOfFile := by simpa [Token.isEnd] using isEnd
  exact IsWord.not_endOfFile (ends ▸ fits.word.isWord)

end Piece.Fits

namespace AllFit

variable {pieces : List Piece}

/-- There are no more pieces than characters. -/
theorem length_le (allFit : AllFit before pieces last) :
    pieces.length ≤ (joined pieces last).length := by
  -- Along the pieces, since the word of each has a character.
  induction allFit with
  | none => simp
  | @piece before last piece pieces fits _ ih =>
    have nonempty := List.length_pos_iff.mpr fits.word.isWord.visible.1
    simp only [joined, Piece.chars, List.flatMap_cons, List.length_append, List.length_cons] at ih ⊢
    omega

/-- No word of a piece is the end of the source. -/
theorem notEnd (allFit : AllFit before pieces last) :
    ∀ piece ∈ pieces, piece.token.isEnd = false := by
  -- Piece by piece.
  induction allFit with
  | none => simp
  | piece fits _ ih => exact List.forall_mem_cons.mpr ⟨fits.notEnd, ih⟩

/-- Pieces that fit are read in order, and reading goes on behind the last one. -/
theorem tokensFrom_eq (allFit : AllFit before pieces last) (limit : Nat) (earlier : List Token) :
    tokensFrom (pieces.length + limit) ⟨joined pieces last, lineAt before⟩ earlier =
      tokensFrom limit ⟨last, lineAt (before ++ joined pieces [])⟩
        ((pieces.map Piece.token).reverse ++ earlier) := by
  induction allFit generalizing earlier with
  | none => simp [joined]
  | @piece before last piece pieces fits _ ih =>
    -- The first piece is in front of all others.
    have split : joined (piece :: pieces) last = piece.chars ++ joined pieces last := by
      simp [joined]
    rw [List.length_cons, Nat.add_right_comm, tokensFrom, split, fits.next_eq]
    simp only [fits.notEnd, Bool.false_eq_true, if_false]
    rw [ih]
    simp [joined]

end AllFit

/-- Behind the last word, the end of the source is read. -/
theorem IsWholeGap.next_end (isWhole : IsWholeGap last []) (line : Nat) :
    next ⟨last, line⟩ =
      ⟨.ok ⟨.endOfFile, line + last.count '\n'⟩, ⟨[], line + last.count '\n'⟩⟩ := by
  -- Behind the gap there is nothing, which is read as the end.
  have skipped := isWhole.isGap.skip line
  rw [List.append_nil] at skipped
  simp [next, skipped, skipGap, Cursor.word]

/-- A character that no word starts with is refused where it stands. -/
theorem word_refused (noWord : ∀ more word, ¬ IsWord (c :: more) word) (rest : List Char)
    (line : Nat) :
    Cursor.word ⟨c :: rest, line⟩ = ⟨.error ⟨line, .unexpectedCharacter c⟩, ⟨c :: rest, line⟩⟩ := by
  -- Each kind of word is excluded by the shortest one that starts with the character.
  have noName : startsName c = false := by
    rw [← Bool.not_eq_true]
    exact fun starts => noWord [] _ (.name starts (by simp))
  have noDigit : c.isDigit = false := by
    rw [← Bool.not_eq_true]
    exact fun digit => noWord [] _ (.integer (by simp) (by simpa using digit))
  have noSingle : Symbol.single? c = none := by
    rw [Option.eq_none_iff_forall_ne_some]
    intro s single
    exact noWord [] _ (spelling_of_single? single ▸ IsWord.symbol s)
  have noDouble : ∀ d, Symbol.double? c d = none := by
    intro d
    rw [Option.eq_none_iff_forall_ne_some]
    intro s double
    exact noWord [d] _ (spelling_of_double? double ▸ IsWord.symbol s)
  -- With none of them left, the character is refused.
  cases rest <;> simp [Cursor.word, noName, noDigit, symbol, noSingle, noDouble]

namespace Faulty

variable {gap : List Char} {cause : LexError.Cause}

/-- No comment opens at a fault, unless the fault is that the comment never ends. -/
theorem noComment (faulty : Faulty rest cause) (closed : cause ≠ .unterminatedComment) :
    ¬ ['/', '*'] <+: rest := by
  cases faulty with
  | unclosed => exact absurd rfl closed
  | @noWord c rest noWord =>
    rw [List.cons_prefix_cons]
    rintro ⟨rfl, -⟩
    -- A slash is a word.
    exact noWord [] _ (.symbol .slash)
  | @number text after isLongest =>
    obtain ⟨c, rest, rfl, digit⟩ := isLongest.isWord.starts_digit
    rw [List.cons_append, List.cons_prefix_cons]
    rintro ⟨rfl, -⟩
    exact absurd digit (by decide)

/-- What is wrong behind a whole gap is reported on the line where it stands. -/
theorem next_eq (faulty : Faulty rest cause) (isWhole : IsWholeGap gap rest) (line : Nat) :
    (next ⟨gap ++ rest, line⟩).result = .error ⟨line + gap.count '\n', cause⟩ := by
  -- The gap is skipped first, and each fault stands right behind it.
  rw [isWhole.isGap.next_eq]
  have stops := fun closed => isWhole.skip_stops (faulty.noComment closed) (line + gap.count '\n')
  cases faulty with
  | @unclosed rest unclosed =>
    have opening : ∀ line, skipGap .blanks line ('/' :: '*' :: rest) =
        skipGap (.blockComment line) line rest := fun _ => rfl
    simp [next, opening, skipGap_unclosed unclosed]
  | noWord noWord => simp [next, stops, word_refused noWord]
  | number isLongest => simp [next, stops, isLongest.word_eq, outcome]

end Faulty

/-- What has a part of some kind at its start has a longest one. -/
theorem exists_longest {P : List Char → Prop} {chars : List Char}
    (some : ∃ part, part <+: chars ∧ P part) :
    ∃ part, part <+: chars ∧ P part ∧ ∀ other, other <+: chars → P other →
      other.length ≤ part.length := by
  -- Along the characters, for all kinds at once, since the first one decides the kind of the rest.
  induction chars generalizing P with
  | nil =>
    obtain ⟨part, isPart, holds⟩ := some
    exact ⟨part, isPart, holds, fun other isOther _ => by simp [List.prefix_nil.mp isOther]⟩
  | cons c chars ih =>
    -- A part with the first character is longer than one without it.
    by_cases longer : ∃ part, part <+: chars ∧ P (c :: part)
    · obtain ⟨part, isPart, holds, longest⟩ := ih longer
      refine ⟨c :: part, List.cons_prefix_cons.mpr ⟨rfl, isPart⟩, holds, ?_⟩
      intro other isOther otherHolds
      cases other with
      | nil => simp
      | cons d other =>
        obtain ⟨rfl, isRest⟩ := List.cons_prefix_cons.mp isOther
        simpa using longest other isRest otherHolds
    · -- Without a longer part, the only one is empty.
      have empty : ∀ other, other <+: c :: chars → P other → other = [] := by
        intro other isOther otherHolds
        cases other with
        | nil => rfl
        | cons d other =>
          obtain ⟨rfl, isRest⟩ := List.cons_prefix_cons.mp isOther
          exact absurd ⟨other, isRest, otherHolds⟩ longer
      obtain ⟨part, isPart, holds⟩ := some
      refine ⟨part, isPart, holds, ?_⟩
      intro other isOther otherHolds
      simp [empty other isOther otherHolds]

/-- All characters start with a whole gap, which may be empty. -/
theorem exists_wholeGap (chars : List Char) :
    ∃ gap after, chars = gap ++ after ∧ IsWholeGap gap after := by
  obtain ⟨gap, -, ⟨after, rfl, isGap⟩, longest⟩ :=
    exists_longest (P := fun gap => ∃ after, chars = gap ++ after ∧ IsGap gap after)
      ⟨[], List.nil_prefix (l := chars), chars, rfl, .none⟩
  -- The longest gap goes on with no other one.
  refine ⟨gap, after, rfl, isGap, ?_⟩
  rintro more later rfl isLonger
  have bounded := longest (gap ++ more) ⟨later, by simp⟩ ⟨later, by simp, isLonger⟩
  rw [List.length_append] at bounded
  exact List.eq_nil_of_length_eq_zero (by omega)

/-- Behind a whole gap stand the end, a fault or the longest word. -/
theorem IsWholeGap.cases_after {gap : List Char} (isWhole : IsWholeGap gap rest) :
    rest = [] ∨ (∃ cause, Faulty rest cause) ∨
      ¬ ['/', '*'] <+: rest ∧
        ∃ text lexeme after, rest = text ++ after ∧ IsLongestWord text (some lexeme) after := by
  rcases rest with _ | ⟨c, rest⟩
  · exact .inl rfl
  -- A comment that opens here is never closed, as it would belong to the gap.
  by_cases opens : ['/', '*'] <+: c :: rest
  · obtain ⟨body, same⟩ := opens
    rw [← same] at isWhole ⊢
    exact .inr (.inl ⟨_, .unclosed isWhole.not_closes⟩)
  -- Of the words at the start there is a longest one, which may be out of bounds.
  by_cases starts : ∃ text, text <+: c :: rest ∧ ∃ word, IsWord text word
  · obtain ⟨text, ⟨after, same⟩, ⟨word, isWord⟩, longest⟩ := exists_longest starts
    rw [← same] at opens longest ⊢
    have isLongest : IsLongestWord text word after :=
      ⟨isWord, fun other word isPart isOther => longest other isPart ⟨word, isOther⟩⟩
    cases word with
    | none => exact .inr (.inl ⟨_, .number isLongest⟩)
    | some lexeme => exact .inr (.inr ⟨opens, text, lexeme, after, rfl, isLongest⟩)
  · refine .inr (.inl ⟨_, .noWord ?_⟩)
    intro more word isWord
    exact starts ⟨[c], by simp, isWord.first⟩

/-- Everything is cut into pieces that fit, up to the end or the first fault. -/
theorem exists_allFit (before rest : List Char) :
    ∃ pieces gap after, rest = joined pieces (gap ++ after) ∧
      AllFit before pieces (gap ++ after) ∧ IsWholeGap gap after ∧
      (after = [] ∨ ∃ cause, Faulty after cause) := by
  -- By the number of characters that are left.
  induction short : rest.length using Nat.strongRecOn generalizing before rest with
  | _ length ih =>
    subst short
    obtain ⟨gap, after, rfl, isWhole⟩ := exists_wholeGap rest
    rcases isWhole.cases_after with ends | faulty | ⟨noComment, text, lexeme, after, rfl, isLongest⟩
    · exact ⟨[], gap, after, rfl, .none, isWhole, .inl ends⟩
    · exact ⟨[], gap, after, rfl, .none, isWhole, .inr faulty⟩
    · -- The word takes characters, so what is behind it is cut by induction.
      have keeps := isLongest.isWord.text_eq
      have nonempty := List.length_pos_iff.mpr isLongest.isWord.visible.1
      let piece : Piece := ⟨gap, ⟨lexeme, lineAt (before ++ gap)⟩⟩
      have chars : piece.chars = gap ++ text := congrArg (gap ++ ·) keeps
      obtain ⟨pieces, last, rest, same, allFit, isWholeLast, reached⟩ :=
        ih after.length (by simp only [List.length_append]; omega) (before ++ piece.chars) after rfl
      refine ⟨piece :: pieces, last, rest, ?_, .piece ?_ allFit, isWholeLast, reached⟩
      · simp [joined, chars, same]
      · have same_text : piece.text = text := keeps
        rw [← same]
        exact ⟨by rwa [same_text], by rwa [same_text], by rwa [same_text], rfl⟩

/-- Pieces at the start of a source are read as its first words. -/
theorem AllFit.tokenize_eq {source : String} {pieces : List Piece}
    (same : source.toList = joined pieces last) (allFit : AllFit [] pieces last) :
    ∃ more, tokenize source = tokensFrom (more + 1) ⟨last, lineAt (joined pieces [])⟩
      (pieces.map Piece.token).reverse := by
  -- Every piece takes a step, and there are more steps than characters.
  have few := allFit.length_le
  rw [← same] at few
  obtain ⟨more, enough⟩ : ∃ more, source.toList.length + 1 = pieces.length + (more + 1) :=
    ⟨source.toList.length - pieces.length, by omega⟩
  have read := allFit.tokensFrom_eq (more + 1) []
  rw [← same, ← enough] at read
  exact ⟨more, by simpa [tokenize, Cursor.ofSource, lineAt] using read⟩

/-- A source whose last gap is at its end has the words of its pieces. -/
theorem AllFit.tokenize_eq_ok {source : String} {pieces : List Piece}
    (same : source.toList = joined pieces last) (allFit : AllFit [] pieces last)
    (isWhole : IsWholeGap last []) : tokenize source =
      .ok (pieces.map Piece.token ++ [⟨.endOfFile, lineAt source.toList⟩]) := by
  -- After the pieces there is one step left, which reads the end.
  obtain ⟨more, read⟩ := allFit.tokenize_eq same
  rw [read, tokensFrom, isWhole.next_end]
  simp [Token.isEnd, same, joined, lineAt, Nat.add_assoc]

/-- A source with a fault behind its pieces is refused for this fault. -/
theorem AllFit.tokenize_eq_error {source : String} {pieces : List Piece} {gap : List Char}
    {cause : LexError.Cause} (same : source.toList = joined pieces (gap ++ rest))
    (allFit : AllFit [] pieces (gap ++ rest)) (isWhole : IsWholeGap gap rest)
    (faulty : Faulty rest cause) :
    tokenize source = .error ⟨lineAt (joined pieces gap), cause⟩ := by
  -- After the pieces there is one step left, which meets the fault.
  obtain ⟨more, read⟩ := allFit.tokenize_eq same
  have stands : lineAt (joined pieces []) + gap.count '\n' = lineAt (joined pieces gap) := by
    simp [joined, lineAt, Nat.add_assoc]
  rw [read, tokensFrom, faulty.next_eq isWhole, stands]

/-- A source is its gaps and its words, where gaps are as long as blanks and comments go and words as
long as words of the language, and it is refused for the first fault behind a gap. -/
theorem tokenize_longest (source : String) :
    (∀ tokens, tokenize source = .ok tokens ↔
      ∃ pieces last, source.toList = joined pieces last ∧ AllFit [] pieces last ∧
        IsWholeGap last [] ∧ (∀ piece ∈ pieces, piece.token.isEnd = false) ∧
        tokens = pieces.map Piece.token ++ [⟨.endOfFile, lineAt source.toList⟩]) ∧
    (∀ error, tokenize source = .error error ↔
      ∃ pieces gap rest, source.toList = joined pieces (gap ++ rest) ∧
        AllFit [] pieces (gap ++ rest) ∧ IsWholeGap gap rest ∧ Faulty rest error.cause ∧
        error.line = lineAt (joined pieces gap)) ∧
    ∀ text word other, IsWord text word → IsWord text other → word = other := by
  -- The source is cut in one of the two ways, and each of them says what is read.
  obtain ⟨pieces, gap, rest, same, allFit, isWhole, reached⟩ := exists_allFit [] source.toList
  refine ⟨fun tokens => ⟨?_, ?_⟩, fun error => ⟨?_, ?_⟩, fun _ _ _ => IsWord.unique⟩
  · intro read
    rcases reached with rfl | ⟨cause, faulty⟩
    · rw [List.append_nil] at same allFit
      rw [allFit.tokenize_eq_ok same isWhole] at read
      exact ⟨pieces, gap, same, allFit, isWhole, allFit.notEnd, (Except.ok.inj read).symm⟩
    · rw [allFit.tokenize_eq_error same isWhole faulty] at read
      cases read
  · -- In the other direction the cut that is given is the one that is read.
    rintro ⟨pieces, last, same, allFit, isWhole, -, rfl⟩
    exact allFit.tokenize_eq_ok same isWhole
  · intro refused
    rcases reached with rfl | ⟨cause, faulty⟩
    · rw [List.append_nil] at same allFit
      rw [allFit.tokenize_eq_ok same isWhole] at refused
      cases refused
    · rw [allFit.tokenize_eq_error same isWhole faulty] at refused
      obtain rfl := Except.error.inj refused
      exact ⟨pieces, gap, rest, same, allFit, isWhole, faulty, rfl⟩
  · -- Here too the cut that is given is the one that is met, and the line is that of its fault.
    rintro ⟨pieces, gap, rest, same, allFit, isWhole, faulty, line⟩
    rw [allFit.tokenize_eq_error same isWhole faulty, ← line]

end Cursor

end Shading

import Shading.Proofs.Lexer.Calls

/-! Layout: the same words are read with any blanks and comments between them. -/

namespace Shading

namespace Cursor

variable {line : Nat} {c : Char} {text more after : List Char} {word : Option Lexeme}
  {lexeme : Lexeme}

namespace IsWord

/-- No character of a word is blank. -/
theorem solid (isWord : IsWord text word) : ∀ c ∈ text, Text.isBlank c = false := by
  -- Letters, digits and underscores are no blanks, and neither are points and symbols.
  have ofName : ∀ {c}, continuesName c = true → Text.isBlank c = false := by
    intro c continues
    have code := toNat_of_continuesName continues
    exact isBlank_eq_false (by omega) (by omega)
  -- Each kind of word lists the characters that it may have.
  cases isWord with
  | name starts continues =>
    exact List.forall_mem_cons.mpr ⟨ofName (continues_of_startsName starts),
      fun c member => ofName (continues c member)⟩
  | integer _ all => exact fun c member => ofName (continues_of_isDigit (all c member))
  | float _ allWhole allFraction =>
    intro c member
    rcases List.mem_append.mp member with member | member
    · exact ofName (continues_of_isDigit (allWhole c member))
    · rcases List.mem_cons.mp member with rfl | member
      · decide
      · exact ofName (continues_of_isDigit (allFraction c member))
  | symbol s =>
    have all : s.spelling.toList.all (fun c => !Text.isBlank c) = true := by cases s <;> rfl
    simpa using all

/-- A word does not go on with a slash. -/
theorem noSlash (isWord : IsWord (c :: more) word) : '/' ∉ more := by
  generalize same : c :: more = text at isWord
  -- Of all characters that go on with a word, a slash is none.
  cases isWord with
  | name _ continues =>
    obtain ⟨rfl, rfl⟩ := List.cons.inj same
    exact fun member => absurd (continues _ member) (by decide)
  | integer _ all =>
    subst same
    exact fun member => absurd (all '/' (List.mem_cons_of_mem _ member)) (by decide)
  | @float whole fraction _ allWhole allFraction =>
    intro member
    have within : '/' ∈ whole ++ '.' :: fraction := same ▸ List.mem_cons_of_mem _ member
    rcases List.mem_append.mp within with inWhole | behind
    · exact absurd (allWhole _ inWhole) (by decide)
    · rcases List.mem_cons.mp behind with point | inFraction
      · exact absurd point (by decide)
      · exact absurd (allFraction _ inFraction) (by decide)
  -- Two slashes are no symbol, so that a slash only stands in front.
  | symbol s =>
    have tail : more = s.spelling.toList.tail := congrArg List.tail same
    subst tail
    cases s <;> decide

/-- A word that starts with a slash is the slash alone or the assignment of a quotient. -/
theorem of_slash (isWord : IsWord ('/' :: more) (some lexeme)) :
    (more = [] ∧ lexeme = .symbol .slash) ∨ more = ['='] := by
  generalize same : '/' :: more = text at isWord
  generalize found : some lexeme = word at isWord
  -- Only symbols start with a slash.
  cases isWord with
  | name starts =>
    obtain ⟨rfl, rfl⟩ := List.cons.inj same
    exact absurd starts (by decide)
  | integer _ all =>
    subst same
    exact absurd (all '/' (by simp)) (by decide)
  | @float whole fraction nonempty all =>
    obtain ⟨d, rest, rfl⟩ := List.exists_cons_of_ne_nil nonempty
    obtain rfl := (List.cons.inj same).1
    exact absurd (all '/' (by simp)) (by decide)
  -- There are two symbols with a slash in front.
  | symbol s =>
    obtain rfl := Option.some.inj found
    cases s <;> first
      | exact absurd (List.cons.inj same).1 (by decide)
      | exact .inl ⟨(List.cons.inj same).2, rfl⟩
      | exact .inr (List.cons.inj same).2

end IsWord

/-- The characters do not run into a word in front of them: the first is a blank, or opens a comment. -/
def KeepsApart (lexeme : Lexeme) (chars : List Char) : Prop :=
  ∀ c ∈ chars.head?, Text.isBlank c = true ∨ (c = '/' ∧ lexeme ≠ .symbol .slash)

namespace IsWord

/-- A word that is kept apart from what follows is the longest one. -/
theorem isLongest_of_apart (isWord : IsWord text (some lexeme)) (apart : KeepsApart lexeme after) :
    IsLongestWord text (some lexeme) after := by
  refine ⟨isWord, fun other word isPart isOther => ?_⟩
  rw [← Nat.not_lt]
  intro longer
  -- A longer word would hold the first of the characters that follow.
  obtain ⟨extra, rfl⟩ :=
    List.prefix_of_prefix_length_le (List.prefix_append text after) isPart (Nat.le_of_lt longer)
  obtain ⟨d, extra, rfl⟩ : ∃ d rest, extra = d :: rest := by
    refine List.exists_cons_of_ne_nil ?_
    rintro rfl
    simp at longer
  obtain ⟨rest, rfl⟩ := (List.prefix_append_right_inj text).mp isPart
  obtain ⟨c, more, rfl⟩ := List.exists_cons_of_ne_nil isWord.visible.1
  -- The first further character is neither a blank nor a slash.
  rcases apart d rfl with blank | ⟨rfl, -⟩
  · exact absurd blank (by simp [isOther.solid d (by simp)])
  · exact isOther.noSlash (by simp)

/-- A word that is kept apart from what follows is read, up to where it ends. -/
theorem next_eq (isWord : IsWord text (some lexeme)) (apart : KeepsApart lexeme after) (line : Nat) :
    next ⟨text ++ after, line⟩ = ⟨.ok ⟨lexeme, line⟩, ⟨after, line⟩⟩ := by
  have noGap : skipGap .blanks line (text ++ after) = ⟨none, ⟨text ++ after, line⟩⟩ := by
    obtain ⟨c, more, rfl⟩ := List.exists_cons_of_ne_nil isWord.visible.1
    have visible := isWord.solid c (by simp)
    have noComment : c = '/' → ∀ d rest, more ++ after = d :: rest → d ≠ '/' ∧ d ≠ '*' := by
      rintro rfl d rest same
      have first : (more ++ after).head? = some d := congrArg List.head? same
      rcases isWord.of_slash with ⟨rfl, rfl⟩ | rfl
      · -- Behind a slash alone, only a blank keeps it apart.
        rcases apart d first with blank | ⟨-, different⟩
        · constructor <;> rintro rfl <;> exact absurd blank (by decide)
        · exact absurd rfl different
      · obtain rfl := Option.some.inj first
        decide
    rw [List.cons_append]
    -- Only blanks and comments are skipped, and neither is in front.
    unfold skipGap
    split
    · rename_i opened
      obtain ⟨slash, same⟩ := List.cons.inj opened
      exact absurd rfl (noComment slash _ _ same).1
    · rename_i opened
      obtain ⟨slash, same⟩ := List.cons.inj opened
      exact absurd rfl (noComment slash _ _ same).2
    all_goals simp_all
  -- The word is read as the longest one there, since what follows is none of it.
  simp only [next, noGap, (isWord.isLongest_of_apart apart).word_eq, outcome]

end IsWord

/-- Words are written with a gap behind each of them, which keeps it apart from the next one. -/
inductive Spaced : List Lexeme → List Char → Prop
  | ended : Spaced [.endOfFile] []
  -- A gap that starts with a blank is behind any word; a comment behind a slash would not open.
  | word {lexeme : Lexeme} {lexemes : List Lexeme} {gap after : List Char} :
    IsGap gap after →
    (gap = [] → after = []) →
    (∀ c ∈ gap.head?, Text.isBlank c = true ∨ lexeme ≠ .symbol .slash) →
    Spaced lexemes after →
    Spaced (lexeme :: lexemes) (lexeme.text.toList ++ (gap ++ after))

/-- The source consists of these words, with any blanks and comments before, between and after them. -/
def Respaces (source : String) (lexemes : List Lexeme) : Prop :=
  ∃ gap words, source.toList = gap ++ words ∧ IsGap gap words ∧ Spaced lexemes words

/-- A gap starts with a blank or with the slash of a comment. -/
theorem IsGap.first {gap : List Char} (isGap : IsGap gap after) :
    ∀ c ∈ gap.head?, Text.isBlank c = true ∨ c = '/' := by
  -- The first part of a gap is in front of it.
  cases isGap with
  | none => simp
  | part isPart =>
    cases isPart with
    | blank blank => simp [blank]
    | lineComment | blockComment => simp

namespace Yields

variable {cursor : Cursor} {tokens : List Token}

/-- The words that are read are words of the language, up to the end. -/
theorem areWords (yields : Yields cursor (.ok tokens)) :
    ∃ words line, tokens = words ++ [⟨.endOfFile, line⟩] ∧
      ∀ token ∈ words, IsWord token.lexeme.text.toList (some token.lexeme) := by
  -- Along the calls, each of which meets what it gives.
  generalize same : Except.ok tokens = result at yields
  induction yields generalizing tokens with
  | @ended cursor token read isEnd =>
    obtain rfl := Except.ok.inj same
    obtain ⟨lexeme, line⟩ := token
    obtain rfl : lexeme = .endOfFile := by simpa [Token.isEnd] using isEnd
    exact ⟨[], line, rfl, by simp⟩
  | failed => cases same
  -- All words behind the first one are of the language, so that this one is left.
  | @next cursor token result read notEnd _ ih =>
    cases result with
    | error => cases same
    | ok more =>
      obtain rfl := Except.ok.inj same
      obtain ⟨words, line, rfl, all⟩ := ih rfl
      refine ⟨token :: words, line, rfl, List.forall_mem_cons.mpr ⟨?_, all⟩⟩
      obtain ⟨gap, place, -, -, meets⟩ := cursor.next_meets
      generalize cursor.next = reading at read meets
      -- What was read is a word as it was met, or the end.
      cases meets with
      | ended =>
        obtain rfl := Except.ok.inj read
        cases notEnd
      | word isWord =>
        obtain rfl := Except.ok.inj read
        rwa [isWord.text_eq]
      | number | comment | character => cases read

end Yields

/-- Words that are written with gaps behind them are read, with any gap in front of them. -/
theorem Spaced.yields {lexemes : List Lexeme} {chars : List Char} (spaced : Spaced lexemes chars)
    {words : List Lexeme} (whole : lexemes = words ++ [.endOfFile])
    (areWords : ∀ lexeme ∈ words, IsWord lexeme.text.toList (some lexeme))
    {gap : List Char} (isGap : IsGap gap chars) (line : Nat) :
    ∃ tokens, Yields ⟨gap ++ chars, line⟩ (.ok tokens) ∧ tokens.map Token.lexeme = lexemes := by
  -- Along the words; the last one is the end of the source.
  induction spaced generalizing words gap line with
  | ended =>
    have read : (next ⟨gap ++ [], line⟩).result = .ok ⟨.endOfFile, line + gap.count '\n'⟩ := by
      rw [isGap.next_eq]
      rfl
    exact ⟨_, .ended read rfl, rfl⟩
  | @word lexeme lexemes behind after isBehind nonempty apart spaced ih =>
    -- The word is none but the last, since the words behind it end with the end of the source.
    obtain ⟨words, rfl⟩ : ∃ more, words = lexeme :: more := by
      rcases words with _ | ⟨first, words⟩
      · obtain rfl := (List.cons.inj whole).2
        cases spaced
      · obtain rfl := (List.cons.inj whole).1
        exact ⟨words, rfl⟩
    obtain ⟨isWord, areWords⟩ := List.forall_mem_cons.mp areWords
    -- What is behind the word starts with a blank, with a slash or not at all.
    have keepsApart : KeepsApart lexeme (behind ++ after) := by
      intro c first
      rcases behind with _ | ⟨d, behind⟩
      · simp [nonempty rfl] at first
      · obtain rfl := Option.some.inj first
        rcases isBehind.first d rfl with blank | slash
        · exact .inl blank
        · exact (apart d rfl).imp_right fun different => ⟨slash, different⟩
    obtain ⟨tokens, yields, same⟩ :=
      ih (List.cons.inj whole).2 areWords isBehind (line + gap.count '\n')
    have read : next ⟨gap ++ (lexeme.text.toList ++ (behind ++ after)), line⟩ =
        ⟨.ok ⟨lexeme, line + gap.count '\n'⟩, ⟨behind ++ after, line + gap.count '\n'⟩⟩ := by
      rw [isGap.next_eq, isWord.next_eq keepsApart]
    -- A word of the language is never the end of the source.
    have notEnd : (⟨lexeme, line + gap.count '\n'⟩ : Token).isEnd = false := by
      simp only [Token.isEnd, beq_eq_false_iff_ne]
      rintro rfl
      exact IsWord.not_endOfFile isWord
    refine ⟨⟨lexeme, line + gap.count '\n'⟩ :: tokens, ?_, by simp [same]⟩
    have more : Yields (next ⟨gap ++ (lexeme.text.toList ++ (behind ++ after)), line⟩).next
        (.ok tokens) := by
      rwa [read]
    exact .next (congrArg Reading.result read) notEnd more

/-- The same words are read from a source with other gaps between them. -/
theorem exists_tokenize_of_respaces {source other : String} {tokens : List Token}
    (cut : tokenize source = .ok tokens) (respaces : Respaces other (tokens.map Token.lexeme)) :
    ∃ others, tokenize other = .ok others ∧ others.map Token.lexeme = tokens.map Token.lexeme := by
  obtain ⟨gap, words, same, isGap, spaced⟩ := respaces
  obtain ⟨before, line, rfl, areWords⟩ := Yields.areWords (cut ▸ yields_tokenize source)
  -- What was read from the one source are words, and so they are in the other one.
  have allWords : ∀ lexeme ∈ before.map Token.lexeme,
      IsWord lexeme.text.toList (some lexeme) := by
    simpa using areWords
  obtain ⟨others, yields, sameWords⟩ := spaced.yields (by simp) allWords isGap 1
  refine ⟨others, ?_, sameWords⟩
  rw [← same] at yields
  exact (yields_tokenize other).unique yields

end Cursor

end Shading

import Shading.Proofs.Lexer.Progress

/-! Written words are read as themselves when what follows cannot be part of them. -/

namespace Shading

/-- A text is a name when it starts and goes on as one, and is no literal. -/
structure IsName (name : String) : Prop where
  starts : ∃ c rest, name.toList = c :: rest ∧ Cursor.startsName c = true
  continues : ∀ c ∈ name.toList, Cursor.continuesName c = true
  noTrue : name ≠ "true"
  noFalse : name ≠ "false"

namespace Cursor

/-- The characters go on neither with a name nor with the digits of a number. -/
def EndsRun (chars : List Char) : Prop :=
  ∀ c ∈ chars.head?, continuesName c = false

/-- The characters go on with nothing that could be the second half of a symbol or of a comment mark. -/
def EndsSymbol (chars : List Char) : Prop :=
  ∀ c ∈ chars.head?, c ∉ ['=', '&', '|', '/', '*']

variable {line : Nat} {c : Char} {rest after : List Char}

/-- Letters are the capital ones and the small ones of the basic alphabet. -/
theorem isAlpha_iff_toNat :
    c.isAlpha = true ↔ 65 ≤ c.toNat ∧ c.toNat ≤ 90 ∨ 97 ≤ c.toNat ∧ c.toNat ≤ 122 := by
  -- A comparison of characters is one of their codes.
  have ranges : c.isAlpha = (decide (c.val ≥ 65 ∧ c.val ≤ 90) ||
      (decide (c.val ≥ 97) && decide (c.val ≤ 122))) := rfl
  have value : c.val.toNat = c.toNat := rfl
  simp [ranges, UInt32.le_iff_toNat_le, value]

/-- The characters of names lie between the digits and the small letters. -/
theorem toNat_of_continuesName (continues : continuesName c = true) :
    48 ≤ c.toNat ∧ c.toNat ≤ 122 := by
  unfold continuesName at continues
  simp only [Char.isAlphanum, Bool.or_eq_true, beq_iff_eq] at continues
  rcases continues with (letter | digit) | rfl
  · have range := isAlpha_iff_toNat.mp letter
    omega
  · -- Digits stand in front of all letters.
    have range : 48 ≤ c.toNat ∧ c.toNat ≤ 57 := Char.isDigit_iff_toNat.mp digit
    omega
  · decide

/-- What starts a name can go on with it. -/
theorem continues_of_startsName (starts : startsName c = true) : continuesName c = true := by
  -- A letter is a letter or a digit, and the underscore is allowed in both places.
  unfold startsName at starts
  unfold continuesName
  simp only [Char.isAlphanum, Bool.or_eq_true] at starts ⊢
  rcases starts with alpha | low
  · exact .inl (.inl alpha)
  · exact .inr low

/-- A digit can go on with a name. -/
theorem continues_of_isDigit (digit : c.isDigit = true) : continuesName c = true := by
  -- Digits are among the characters of names.
  simp [continuesName, Char.isAlphanum, digit]

/-- Where a run of name characters ends, a run of digits does as well. -/
theorem EndsRun.noDigit (ends : EndsRun after) : ∀ c ∈ after.head?, c.isDigit = false := by
  -- Every digit can go on with a name.
  intro c member
  cases digit : c.isDigit with
  | false => rfl
  | true =>
    have continues := continues_of_isDigit digit
    rw [ends c member] at continues
    cases continues

/-- What names and numbers are made of is no second half of a symbol. -/
theorem noHalf_of_continuesName (continues : continuesName c = true) :
    c ∉ ['=', '&', '|', '/', '*'] := by
  -- There are five such characters, and none of them is in a name.
  intro half
  simp only [List.mem_cons, List.not_mem_nil, or_false] at half
  rcases half with rfl | rfl | rfl | rfl | rfl <;> simp [continuesName] at continues

/-- Visible characters of the basic alphabet are no blanks. -/
theorem isBlank_eq_false (least : 33 ≤ c.toNat) (most : c.toNat ≤ 126) : Text.isBlank c = false := by
  -- Within this range the table of blanks has no entry.
  simp only [Text.isBlank, Text.inTable, Text.blankTable, List.any_cons, List.any_nil,
    Text.CharRange.holds]
  simp
  omega

/-- A run of characters is taken up to the first one that does not belong to it. -/
theorem takeWhile_run {p : Char → Bool} {run : List Char} (all : ∀ c ∈ run, p c = true)
    (stop : ∀ c ∈ after.head?, p c = false) :
    (run ++ after).takeWhile p = run ∧ (run ++ after).dropWhile p = after := by
  -- The run belongs to it, and the first character behind does not.
  rw [List.takeWhile_append_of_pos all, List.dropWhile_append_of_pos all]
  cases after with
  | nil => simp
  | cons c after => simp [stop c rfl]

/-- No gap stands in front of a character that is neither blank nor a slash. -/
theorem next_eq_word (visible : Text.isBlank c = false) (noSlash : c ≠ '/') :
    next ⟨c :: rest, line⟩ = word ⟨c :: rest, line⟩ := by
  -- Skipping stops at once, so that only the word is left of the call.
  have noGap : skipGap .blanks line (c :: rest) = ⟨none, ⟨c :: rest, line⟩⟩ := by
    unfold skipGap
    split <;> simp_all
  simp [next, noGap]

/-- A run of name characters is one word up to where the run ends. -/
theorem word_run (starts : startsName c = true) (continues : ∀ d ∈ c :: rest, continuesName d = true)
    (ends : EndsRun after) : word ⟨c :: rest ++ after, line⟩ =
      ⟨.ok ⟨nameLexeme (String.ofList (c :: rest)), line⟩, ⟨after, line⟩⟩ := by
  -- The first character chooses the branch, and the run ends where its characters do.
  obtain ⟨taken, dropped⟩ := takeWhile_run continues ends
  rw [List.cons_append] at *
  simp [word, starts, taken, dropped]

/-- The word for a name is read up to where the name ends. -/
theorem next_run {run : List Char} (starts : ∃ c rest, run = c :: rest ∧ startsName c = true)
    (continues : ∀ c ∈ run, continuesName c = true) (ends : EndsRun after) :
    next ⟨run ++ after, line⟩ =
      ⟨.ok ⟨nameLexeme (String.ofList run), line⟩, ⟨after, line⟩⟩ := by
  obtain ⟨c, rest, rfl, startsHere⟩ := starts
  have range := toNat_of_continuesName (continues_of_startsName startsHere)
  -- A letter opens no comment and is not skipped as a blank.
  have noSlash : c ≠ '/' := by
    rintro rfl
    simp [startsName] at startsHere
  have visible : Text.isBlank c = false := isBlank_eq_false (by omega) (by omega)
  rw [← word_run startsHere continues ends]
  exact next_eq_word visible noSlash

/-- A name is read as an identifier. -/
theorem next_name {name : String} (isName : IsName name) (ends : EndsRun after) :
    next ⟨name.toList ++ after, line⟩ = ⟨.ok ⟨.identifier name, line⟩, ⟨after, line⟩⟩ := by
  -- A name is none of the two truth values.
  rw [next_run isName.starts isName.continues ends, String.ofList_toList]
  simp [nameLexeme, isName.noTrue, isName.noFalse]

/-- A truth value is read as its literal. -/
theorem next_boolean (value : Bool) (ends : EndsRun after) :
    next ⟨(if value then "true" else "false").toList ++ after, line⟩ =
      ⟨.ok ⟨.boolean value, line⟩, ⟨after, line⟩⟩ := by
  -- Truth values are words of letters.
  cases value with
  | true => exact next_run ⟨'t', _, rfl, rfl⟩ (List.all_eq_true.mp rfl) ends
  | false => exact next_run ⟨'f', _, rfl, rfl⟩ (List.all_eq_true.mp rfl) ends

/-- A digit starts no name. -/
theorem not_startsName_of_isDigit (digit : c.isDigit = true) : startsName c = false := by
  have digits : 48 ≤ c.toNat ∧ c.toNat ≤ 57 := Char.isDigit_iff_toNat.mp digit
  -- A letter or a low line would stand behind all digits.
  rw [← Bool.not_eq_true]
  intro starts
  simp only [startsName, Bool.or_eq_true, beq_iff_eq] at starts
  rcases starts with letter | rfl
  · have range := isAlpha_iff_toNat.mp letter
    omega
  · exact absurd digits (by decide)

/-- What starts a name is no digit. -/
theorem not_isDigit_of_startsName (starts : startsName c = true) : c.isDigit = false := by
  -- Digits are kept out of the first place of a name.
  rw [← Bool.not_eq_true]
  intro digit
  rw [not_startsName_of_isDigit digit] at starts
  cases starts

/-- A word that starts with a digit is a number. -/
theorem word_eq_number (digit : c.isDigit = true) :
    word ⟨c :: rest, line⟩ = number ⟨c :: rest, line⟩ := by
  -- The branch of names is not taken.
  simp [word, not_startsName_of_isDigit digit, digit]

/-- A number is read where its first digit stands. -/
theorem next_eq_number (digit : c.isDigit = true) :
    next ⟨c :: rest, line⟩ = number ⟨c :: rest, line⟩ := by
  -- Digits are neither blanks nor slashes.
  have range := toNat_of_continuesName (continues_of_isDigit digit)
  have digits : 48 ≤ c.toNat ∧ c.toNat ≤ 57 := Char.isDigit_iff_toNat.mp digit
  have noSlash : c ≠ '/' := by
    rintro rfl
    exact absurd digits (by decide)
  rw [next_eq_word (isBlank_eq_false (by omega) (by omega)) noSlash, word_eq_number digit]

/-- Digits without a point are an integer, if it is within the bounds. -/
theorem number_integer {digits : List Char} (all : ∀ c ∈ digits, c.isDigit = true)
    (stop : ∀ c ∈ after.head?, c.isDigit = false) (noPoint : '.' ∉ after.head?) (line : Nat) :
    number ⟨digits ++ after, line⟩ =
      ⟨if Decimal.ofDigits digits ≤ largestInteger
        then .ok ⟨.integer (String.ofList digits) (Decimal.ofDigits digits), line⟩
        else .error ⟨line, .invalidNumber (String.ofList digits)⟩, ⟨after, line⟩⟩ := by
  -- The run of digits ends before what follows, which is not a point.
  obtain ⟨taken, dropped⟩ := takeWhile_run all stop
  simp only [number, taken, dropped]
  cases after with
  | nil => rfl
  | cons d after =>
    split
    · simp_all
    · rfl

/-- Digits around a point are a float, if the format has one near it. -/
theorem number_float {whole fraction : List Char} (allWhole : ∀ c ∈ whole, c.isDigit = true)
    (allFraction : ∀ c ∈ fraction, c.isDigit = true)
    (stop : ∀ c ∈ after.head?, c.isDigit = false) (line : Nat) :
    number ⟨whole ++ '.' :: fraction ++ after, line⟩ =
      ⟨match Binary32.ofDecimal? (.ofParts whole fraction) with
        | some value => .ok ⟨.float (String.ofList (whole ++ '.' :: fraction)) value, line⟩
        | none => .error ⟨line, .invalidNumber (String.ofList (whole ++ '.' :: fraction))⟩,
        ⟨after, line⟩⟩ := by
  have point : ∀ c ∈ ('.' :: (fraction ++ after)).head?, c.isDigit = false := by simp
  obtain ⟨takenWhole, droppedWhole⟩ := takeWhile_run allWhole point
  obtain ⟨takenFraction, droppedFraction⟩ := takeWhile_run allFraction stop
  rw [List.append_assoc, List.cons_append]
  -- The number itself does not matter, and computing it would lead far.
  cases read : Binary32.ofDecimal? (.ofParts whole fraction) <;>
    simp only [number, takenWhole, droppedWhole, takenFraction, droppedFraction, read]

/-- Digits without a point are read as an integer. -/
theorem next_integer {digits : List Char} (nonempty : digits ≠ [])
    (all : ∀ c ∈ digits, c.isDigit = true) (small : Decimal.ofDigits digits ≤ largestInteger)
    (ends : EndsRun after) (noPoint : '.' ∉ after.head?) :
    next ⟨digits ++ after, line⟩ =
      ⟨.ok ⟨.integer (String.ofList digits) (Decimal.ofDigits digits), line⟩, ⟨after, line⟩⟩ := by
  -- The first digit sends the call to numbers.
  have read := number_integer all ends.noDigit noPoint line
  obtain ⟨c, rest, rfl⟩ := List.exists_cons_of_ne_nil nonempty
  rw [List.cons_append] at *
  rw [next_eq_number (all c (by simp)), read, if_pos small]

/-- Digits around a point are read as a float. -/
theorem next_float {whole fraction : List Char} {value : Binary32} (nonempty : whole ≠ [])
    (allWhole : ∀ c ∈ whole, c.isDigit = true) (allFraction : ∀ c ∈ fraction, c.isDigit = true)
    (reads : Binary32.ofDecimal? (.ofParts whole fraction) = some value) (ends : EndsRun after) :
    next ⟨whole ++ '.' :: fraction ++ after, line⟩ =
      ⟨.ok ⟨.float (String.ofList (whole ++ '.' :: fraction)) value, line⟩, ⟨after, line⟩⟩ := by
  -- The first digit sends the call to numbers, and the point is passed on the way.
  have read := number_float allWhole allFraction ends.noDigit line
  obtain ⟨c, rest, rfl⟩ := List.exists_cons_of_ne_nil nonempty
  simp only [reads] at read
  rw [List.append_assoc, List.cons_append] at *
  rw [next_eq_number (allWhole c (by simp)), read]

/-- Two characters are no symbol when the second one is never a second half. -/
theorem double?_eq_none {d : Char} (noHalf : d ∉ ['=', '&', '|', '/', '*']) (c : Char) :
    Symbol.double? c d = none := by
  -- The table lists five second halves.
  unfold Symbol.double?
  split <;> simp_all

/-- No symbol starts with a blank, with what starts a name or with a digit. -/
theorem not_blank_of_single? {s : Symbol} (single : Symbol.single? c = some s) :
    Text.isBlank c = false ∧ startsName c = false ∧ c.isDigit = false := by
  -- The table lists the first characters.
  unfold Symbol.single? at single
  split at single <;> first | decide | cases single

/-- A symbol of one character is a word when what follows does not make it longer. -/
theorem word_single {d : Char} {s : Symbol} (single : Symbol.single? c = some s)
    (alone : Symbol.double? c d = none) :
    word ⟨c :: d :: after, line⟩ = ⟨.ok ⟨.symbol s, line⟩, ⟨d :: after, line⟩⟩ := by
  -- The other branches exclude symbols, and the longer symbol was excluded.
  obtain ⟨-, noName, noDigit⟩ := not_blank_of_single? single
  simp [word, noName, noDigit, symbol, alone, single]

/-- A symbol of one character is read when what follows makes it neither longer nor a comment. -/
theorem next_single {d : Char} {s : Symbol} (single : Symbol.single? c = some s)
    (alone : Symbol.double? c d = none) (noComment : c = '/' → d ≠ '/' ∧ d ≠ '*') :
    next ⟨c :: d :: after, line⟩ = ⟨.ok ⟨.symbol s, line⟩, ⟨d :: after, line⟩⟩ := by
  -- Neither a blank nor a comment is in front.
  have visible := (not_blank_of_single? single).1
  have noGap : skipGap .blanks line (c :: d :: after) = ⟨none, ⟨c :: d :: after, line⟩⟩ := by
    unfold skipGap
    split <;> simp_all
  simp [next, noGap, word_single single alone]

/-- What stands behind a symbol cannot be read as part of it. -/
def Apart (s : Symbol) (chars : List Char) : Prop :=
  s = .rightParen ∨ s = .rightBracket ∨ EndsSymbol chars

/-- A symbol is read when what stands behind it is no part of it. -/
theorem next_symbol {s : Symbol} (apart : Apart s after) :
    next ⟨s.spelling.toList ++ after, line⟩ = ⟨.ok ⟨.symbol s, line⟩, ⟨after, line⟩⟩ := by
  rcases after with _ | ⟨d, after⟩
  · cases s <;> rfl
  · -- Behind a symbol of two characters nothing matters.
    rcases apart with rfl | rfl | ends
    · exact next_single rfl rfl fun same => absurd same (by decide)
    · exact next_single rfl rfl fun same => absurd same (by decide)
    · -- Any other symbol is read alone, as what follows is no second half for it.
      have noHalf : d ∉ ['=', '&', '|', '/', '*'] := ends d rfl
      have noComment : d ≠ '/' ∧ d ≠ '*' := by
        simp only [List.mem_cons, List.not_mem_nil, or_false, not_or] at noHalf
        exact ⟨noHalf.2.2.2.1, noHalf.2.2.2.2⟩
      cases s <;> first
        | exact next_single rfl (double?_eq_none noHalf _) fun _ => noComment
        | rfl

/-- Blanks in front of a word are skipped. -/
theorem next_blank (line : Nat) (rest : List Char) : next ⟨' ' :: rest, line⟩ = next ⟨rest, line⟩ := by
  -- A blank is no line feed, so that the line stays.
  have skipped : skipGap .blanks line (' ' :: rest) = skipGap .blanks line rest := by
    conv => lhs; unfold skipGap
    rfl
  simp only [next, skipped]

/-- On one line, the characters are cut into words up to the rest of them. -/
inductive Cuts (line : Nat) : List Char → List Token → List Char → Prop
  | none {rest : List Char} : Cuts line rest [] rest
  | blank {chars rest : List Char} {tokens : List Token} :
    Cuts line chars tokens rest →
    Cuts line (' ' :: chars) tokens rest
  | next {chars between rest : List Char} {token : Token} {tokens : List Token} :
    next ⟨chars, line⟩ = ⟨.ok token, ⟨between, line⟩⟩ →
    token.isEnd = false →
    Cuts line between tokens rest →
    Cuts line chars (token :: tokens) rest

namespace Cuts

variable {chars between : List Char} {tokens others : List Token}

/-- The words of two parts of a line are those of the first and then those of the second. -/
theorem append (before : Cuts line chars tokens between) (after : Cuts line between others rest) :
    Cuts line chars (tokens ++ others) rest := by
  -- Along the first part.
  induction before with
  | none => exact after
  | blank _ ih => exact .blank (ih after)
  | next read notEnd _ ih => exact .next read notEnd (ih after)

/-- A single word is cut off. -/
theorem single {token : Token} (read : Cursor.next ⟨chars, line⟩ = ⟨.ok token, ⟨rest, line⟩⟩)
    (notEnd : token.isEnd = false) : Cuts line chars [token] rest :=
  -- Nothing is left to cut behind it.
  .next read notEnd .none

/-- A symbol is cut off in front of other words. -/
theorem sign (s : Symbol) (apart : Apart s between) (cuts : Cuts line between tokens rest) :
    Cuts line (s.spelling.toList ++ between) (⟨.symbol s, line⟩ :: tokens) rest :=
  -- What stands behind the symbol does not make it longer.
  .next (next_symbol apart) rfl cuts

/-- There are no more words than characters. -/
theorem length_le (cuts : Cuts line chars tokens rest) :
    tokens.length + rest.length ≤ chars.length := by
  induction cuts with
  | none => simp
  | blank _ ih =>
    rw [List.length_cons]
    omega
  | next read notEnd _ ih =>
    -- A word is never empty.
    have fewer := next_shorter (congrArg Reading.result read) notEnd
    rw [read] at fewer
    rw [List.length_cons]
    simp only at fewer
    omega

/-- Words that are cut off a line are read before the others. -/
theorem tokensFrom_eq (cuts : Cuts line chars tokens rest) (limit : Nat) (earlier : List Token) :
    tokensFrom (tokens.length + limit) ⟨chars, line⟩ earlier =
      tokensFrom limit ⟨rest, line⟩ (tokens.reverse ++ earlier) := by
  induction cuts generalizing earlier with
  | none => simp
  -- A blank is passed on the way to the next word, and takes no call for itself.
  | @blank chars rest tokens _ ih =>
    rw [← ih]
    cases tokens.length + limit with
    | zero => rfl
    | succ limit => simp only [tokensFrom, next_blank]
  | next read notEnd _ ih =>
    rw [List.length_cons, Nat.add_right_comm, tokensFrom, read]
    simp only [notEnd, Bool.false_eq_true, if_false]
    rw [ih]
    simp

end Cuts

end Cursor

/-- A name behind a symbol is no part of it. -/
theorem IsName.endsSymbol {name : String} (isName : IsName name) (after : List Char) :
    Cursor.EndsSymbol (name.toList ++ after) := by
  -- The first character of a name is no second half.
  obtain ⟨c, rest, same, starts⟩ := isName.starts
  rw [same]
  intro d first
  obtain rfl := Option.some.inj first
  exact Cursor.noHalf_of_continuesName (Cursor.continues_of_startsName starts)

/-- A source of one line that is cut into words to its end has these words. -/
theorem tokenize_eq_ok {source : String} {tokens : List Token}
    (cuts : Cursor.Cuts 1 source.toList tokens []) :
    tokenize source = .ok (tokens ++ [⟨.endOfFile, 1⟩]) := by
  -- There are more steps than characters, and one of them is left for the end.
  have few := cuts.length_le
  obtain ⟨more, enough⟩ : ∃ more, source.toList.length + 1 = tokens.length + (more + 1) :=
    ⟨source.toList.length - tokens.length, by simp at few; omega⟩
  rw [tokenize, Cursor.ofSource, enough, cuts.tokensFrom_eq]
  simp [Cursor.tokensFrom, Cursor.next, Cursor.skipGap, Cursor.word, Token.isEnd]

end Shading

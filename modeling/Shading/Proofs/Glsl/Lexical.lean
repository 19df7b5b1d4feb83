import Shading.Glsl.Mark
import Shading.Proofs.Lexer.Spelling

/-! The lexical rules of GLSL: a text is cut into words, each of them as long as it can be. -/

namespace Shading.Glsl

open Cursor

/-- The operators and brackets of GLSL, and the marks that start its comments. -/
def operators : List String :=
  ["(", ")", "[", "]", "\x7b", "\x7d", ".", ",", ":", ";", "?", "~",
    "+", "-", "*", "/", "%", "<", ">", "=", "!", "&", "|", "^",
    "++", "--", "<<", ">>", "&&", "||", "^^", "<=", ">=", "==", "!=",
    "+=", "-=", "*=", "/=", "%=", "&=", "|=", "^=", "<<=", ">>=", "//", "/*"]

/-- An operator, a bracket or a comment mark. -/
def isOperator (text : List Char) : Bool :=
  operators.any (·.toList == text)

/-- A name or a keyword. -/
def isIdentifier : List Char → Bool
  | [] => false
  | c :: rest => startsName c && rest.all continuesName

/-- What may stand behind the digits of an integer. -/
def endsInteger (text : List Char) : Bool :=
  [[], ['u'], ['U']].contains text

/-- A digit of a hexadecimal number. -/
def isHexDigit (c : Char) : Bool :=
  c.isDigit || "abcdefABCDEF".toList.contains c

/-- An integer in any of its notations. -/
def isInteger (text : List Char) : Bool :=
  let hex := text.drop 2
  text.takeWhile Char.isDigit != [] && endsInteger (text.dropWhile Char.isDigit) ||
    [['0', 'x'], ['0', 'X']].contains (text.take 2) && hex.takeWhile isHexDigit != [] &&
      endsInteger (hex.dropWhile isHexDigit)

/-- What may stand behind the digits and the exponent of a float. -/
def endsFloat (text : List Char) : Bool :=
  [[], ['f'], ['F'], ['l', 'f'], ['L', 'F']].contains text

/-- An exponent and what may stand behind it. -/
def isExponent : List Char → Bool
  | [] => false
  | e :: rest =>
    let digits := if ['+', '-'].contains (rest.headD ' ') then rest.tail else rest
    (e == 'e' || e == 'E') && digits.takeWhile Char.isDigit != [] &&
      endsFloat (digits.dropWhile Char.isDigit)

/-- A float: digits with a point, at which one side may be empty, or with an exponent. -/
def isFloat (text : List Char) : Bool :=
  let whole := text.takeWhile Char.isDigit
  match text.dropWhile Char.isDigit with
  | '.' :: rest =>
    let behind := rest.dropWhile Char.isDigit
    (whole != [] || rest.takeWhile Char.isDigit != []) && (endsFloat behind || isExponent behind)
  | behind => whole != [] && isExponent behind

/-- A word of GLSL. -/
def isWord (text : List Char) : Bool :=
  isIdentifier text || isInteger text || isFloat text || isOperator text

/-- The longest word that is at the front of a text and has no more than some number of characters. -/
def longestUpTo (text : List Char) : Nat → Option (List Char)
  | 0 => none
  | count + 1 =>
    if isWord (text.take (count + 1)) then some (text.take (count + 1)) else longestUpTo text count

/-- The longest word at the front of a text. -/
def longestWord? (text : List Char) : Option (List Char) :=
  longestUpTo text text.length

/-- A character that separates words. -/
def isSpace (c : Char) : Bool :=
  [' ', '\t', '\n', '\x0b', '\x0c', '\r'].contains c

/-- The words of a text behind some number of characters, if it can be cut into words. -/
def wordsFrom : Nat → List Char → Option (List String)
  | _, [] => some []
  | skipped + 1, _ :: rest => wordsFrom skipped rest
  | 0, c :: rest =>
    if isSpace c then wordsFrom 0 rest
    else
      match longestWord? (c :: rest) with
      | none => none
      -- The further characters of the word are skipped, so that the recursion is structural.
      | some word => (wordsFrom (word.length - 1) rest).map (String.ofList word :: ·)

/-- The words of a text, if it can be cut into words. -/
def words? (text : String) : Option (List String) :=
  wordsFrom 0 text.toList

/-- A sign in front of a number in an exponent belongs to the number, and one between names does not. -/
example : words? "1.5e-3f--x.y <<=0x1Fu" =
    some ["1.5e-3f", "--", "x", ".", "y", "<<=", "0x1Fu"] := by
  decide +kernel

variable {text word after : List Char} {c : Char}

section Longest

/-- The longest word is a word. -/
theorem isWord_of_longestUpTo {count : Nat} (found : longestUpTo text count = some word) :
    isWord word = true := by
  -- Only words are returned; every other length goes on with a smaller one.
  induction count with
  | zero => cases found
  | succ count ih =>
    rw [longestUpTo] at found
    split at found
    · rename_i taken
      cases found
      exact taken
    · exact ih found

/-- A word is the longest one where nothing longer is a word. -/
theorem longestUpTo_of_longer {count : Nat} (isWord : isWord word = true)
    (nonempty : word ≠ []) (bound : word.length ≤ count)
    (longer : ∀ length, word.length < length → length ≤ count →
      Glsl.isWord ((word ++ after).take length) = false) :
    longestUpTo (word ++ after) count = some word := by
  -- Counting down, every length above that of the word is passed over.
  induction count with
  | zero => exact absurd (List.length_eq_zero_iff.mp (Nat.le_zero.mp bound)) nonempty
  | succ count ih =>
    rw [longestUpTo]
    rcases Nat.lt_or_eq_of_le bound with less | same
    · rw [if_neg (by simp [longer (count + 1) less (Nat.le_refl _)])]
      exact ih (Nat.le_of_lt_succ less) fun length above within =>
        longer length above (Nat.le_succ_of_le within)
    · rw [← same, List.take_left, if_pos isWord]

/-- A word is cut off when it goes on as no longer word with the character behind it. -/
theorem longestWord?_of_ends (isWord : isWord word = true)
    (ends : ∀ c ∈ after.head?, ∀ more, Glsl.isWord (word ++ c :: more) = false) :
    longestWord? (word ++ after) = some word := by
  -- Nothing is no word.
  have nonempty : word ≠ [] := by
    rintro rfl
    cases isWord
  refine longestUpTo_of_longer isWord nonempty (by simp) fun length above within => ?_
  -- More than the word is the word and some of what is behind it.
  obtain ⟨extra, rfl⟩ := Nat.exists_eq_add_of_lt above
  cases after with
  | nil =>
    rw [List.append_nil] at within
    omega
  | cons c after =>
    rw [Nat.add_assoc, List.take_length_add_append, List.take_succ_cons]
    exact ends c rfl _

/-- No word at the front of a text is longer than the one that is cut off. -/
theorem length_le_of_longestUpTo {count length : Nat} (found : longestUpTo text count = some word)
    (bound : length ≤ count) (within : length ≤ text.length)
    (isWord : isWord (text.take length) = true) : length ≤ word.length := by
  -- The first length that makes a word on the way down is the one that is returned.
  induction count with
  | zero => cases found
  | succ count ih =>
    rw [longestUpTo] at found
    split at found
    · cases found
      rw [List.length_take]
      omega
    · rename_i noWord
      -- The length is either tried later or just now.
      rcases Nat.lt_or_eq_of_le bound with less | rfl
      · exact ih found (Nat.le_of_lt_succ less)
      · exact absurd isWord noWord

/-- A word is not cut off when it is a word with the character behind it as well. -/
theorem longestWord?_ne_of_longer (longer : isWord (word ++ [c]) = true) :
    longestWord? (word ++ c :: after) ≠ some word := by
  -- One more character would have made the longer word the one that is cut off.
  intro found
  have taken : (word ++ c :: after).take (word.length + 1) = word ++ [c] := by
    rw [List.take_length_add_append, List.take_succ_cons, List.take_zero]
  have bound : word.length + 1 ≤ (word ++ c :: after).length := by
    rw [List.length_append, List.length_cons]
    omega
  have shorter := length_le_of_longestUpTo found bound bound (taken ▸ longer)
  omega

end Longest

section Ends

/-- Operators are made of characters that are in no name. -/
theorem not_continuesName_of_operator (isOperator : isOperator text = true) :
    ∀ c ∈ text, continuesName c = false := by
  -- There are only finitely many operators to look at.
  have all : operators.all (·.toList.all (!continuesName ·)) = true := by decide +kernel
  obtain ⟨op, member, same⟩ := List.any_eq_true.mp isOperator
  rw [beq_iff_eq] at same
  intro c inText
  have foreign := List.all_eq_true.mp (List.all_eq_true.mp all op member) c (same ▸ inText)
  simpa using foreign

/-- What starts with a letter or a digit is no operator. -/
theorem not_isOperator_of_continuesName (continues : continuesName c = true) (rest : List Char) :
    isOperator (c :: rest) = false := by
  -- The first character of an operator is no part of a name.
  rw [← Bool.not_eq_true]
  intro isOperator
  have none := not_continuesName_of_operator isOperator c (by simp)
  rw [continues] at none
  cases none

/-- A word that starts like a name is one. -/
theorem isWord_eq_isIdentifier (starts : startsName c = true) (rest : List Char) :
    isWord (c :: rest) = isIdentifier (c :: rest) := by
  -- Numbers start with a digit or a point, and operators with what is in no name.
  have noDigit := not_isDigit_of_startsName starts
  have noZero : c ≠ '0' := by
    rintro rfl
    cases noDigit
  have noPoint : c ≠ '.' := by
    rintro rfl
    cases starts
  have noOperator := not_isOperator_of_continuesName (continues_of_startsName starts) rest
  simp [isWord, isInteger, isFloat, noDigit, noZero, noPoint, noOperator]

/-- A word that starts with a digit is a number. -/
theorem isWord_eq_isNumber (digit : c.isDigit = true) (rest : List Char) :
    isWord (c :: rest) = (isInteger (c :: rest) || isFloat (c :: rest)) := by
  -- Digits start neither a name nor an operator, so two of the four kinds are left.
  have noOperator := not_isOperator_of_continuesName (continues_of_isDigit digit) rest
  simp [isWord, isIdentifier, not_startsName_of_isDigit digit, noOperator]

/-- Names are cut off where they end. -/
theorem longestWord?_identifier (isIdentifier : isIdentifier word = true) (ends : EndsRun after) :
    longestWord? (word ++ after) = some word := by
  cases word with
  | nil => cases isIdentifier
  | cons c rest =>
    have starts : startsName c = true := (Bool.and_eq_true_iff.mp isIdentifier).1
    -- The name is a word, and it ends before what follows.
    apply longestWord?_of_ends
    · rw [isWord_eq_isIdentifier starts]
      exact isIdentifier
    · -- With the character behind it, the run would still have to be a name.
      intro d first more
      rw [List.cons_append, isWord_eq_isIdentifier starts]
      simp [Glsl.isIdentifier, ends d first]

/-- A run of name characters ends at a character that is none of them. -/
theorem endsRun_cons {more : List Char} : EndsRun (c :: more) ↔ continuesName c = false := by
  -- The run ends where the next character does not continue it.
  simp [EndsRun]

/-- Only letters can stand behind the digits of a number. -/
theorem no_ending (ends : continuesName c = false) (more : List Char) :
    endsInteger (c :: more) = false ∧ endsFloat (c :: more) = false ∧
      isExponent (c :: more) = false := by
  -- All suffixes and exponents start with letters, which a name could go on with.
  have differs : ∀ {d}, continuesName d = true → c ≠ d := by
    rintro d continues rfl
    rw [ends] at continues
    cases continues
  have letters : c ≠ 'u' ∧ c ≠ 'U' ∧ c ≠ 'f' ∧ c ≠ 'F' ∧ c ≠ 'l' ∧ c ≠ 'L' ∧ c ≠ 'e' ∧ c ≠ 'E' := by
    refine ⟨?_, ?_, ?_, ?_, ?_, ?_, ?_, ?_⟩ <;> exact differs rfl
  simp [endsInteger, endsFloat, isExponent, letters]

/-- Digits in front of what is no digit are not the mark of a hexadecimal number. -/
theorem noHex {digits : List Char} (all : ∀ d ∈ digits, d.isDigit = true) (nonempty : digits ≠ [])
    (ends : continuesName c = false) (more : List Char) :
    [['0', 'x'], ['0', 'X']].contains ((digits ++ c :: more).take 2) = false := by
  have notMark : ∀ {d : Char}, d.isDigit = true ∨ continuesName d = false → d ≠ 'x' ∧ d ≠ 'X' := by
    rintro d (digit | ends) <;> constructor <;> rintro rfl <;> contradiction
  -- The second character is a digit as well, or the one behind all digits.
  match digits with
  | [] => exact absurd rfl nonempty
  | [d] => simp [notMark (.inr ends)]
  | d :: d' :: rest => simp [notMark (.inl (all d' (by simp)))]

/-- A run that is not followed by anything is taken as a whole. -/
theorem takeWhile_all {p : Char → Bool} {run : List Char} (all : ∀ d ∈ run, p d = true) :
    run.takeWhile p = run ∧ run.dropWhile p = [] := by
  -- The run is all there is, so nothing stops it before its end.
  have taken : (run ++ []).takeWhile p = run ∧ (run ++ []).dropWhile p = [] :=
    takeWhile_run all (by simp)
  rwa [List.append_nil] at taken

/-- A run of digits is an integer. -/
theorem isInteger_digits {digits : List Char} (nonempty : digits ≠ [])
    (all : ∀ d ∈ digits, d.isDigit = true) : isInteger digits = true := by
  -- All characters are digits, so nothing is left for a suffix.
  simp [isInteger, takeWhile_all all, nonempty, endsInteger]

/-- Digits with a point behind or between them are a float. -/
theorem isFloat_point {whole fraction : List Char} (nonempty : whole ≠ [])
    (allWhole : ∀ d ∈ whole, d.isDigit = true) (allFraction : ∀ d ∈ fraction, d.isDigit = true) :
    isFloat (whole ++ '.' :: fraction) = true := by
  -- The digits in front stop at the point, and those behind it at the end.
  have stop : ∀ d ∈ ('.' :: fraction).head?, d.isDigit = false := by simp
  obtain ⟨takenWhole, droppedWhole⟩ := takeWhile_run allWhole stop
  unfold isFloat
  rw [takenWhole, droppedWhole]
  simp [takeWhile_all allFraction, nonempty, endsFloat]

/-- Digits are no number together with what is neither a letter nor a point. -/
theorem not_isNumber_of_digits {digits : List Char} (all : ∀ d ∈ digits, d.isDigit = true)
    (nonempty : digits ≠ []) (ends : continuesName c = false) (point : c ≠ '.') (more : List Char) :
    isInteger (digits ++ c :: more) = false ∧ isFloat (digits ++ c :: more) = false := by
  -- The digits are taken as a whole, so that the character behind them decides.
  have noDigit : ∀ d ∈ (c :: more).head?, d.isDigit = false := (endsRun_cons.mpr ends).noDigit
  obtain ⟨taken, dropped⟩ := takeWhile_run all noDigit
  obtain ⟨noInteger, -, noExponent⟩ := no_ending ends more
  constructor
  · unfold isInteger
    rw [taken, dropped, noInteger, noHex all nonempty ends more]
    simp
  · unfold isFloat
    rw [taken, dropped]
    simp [noExponent, point]

/-- Digits are cut off where no point follows. -/
theorem longestWord?_integer {digits : List Char} (nonempty : digits ≠ [])
    (all : ∀ d ∈ digits, d.isDigit = true) (ends : EndsRun after) (noPoint : '.' ∉ after.head?) :
    longestWord? (digits ++ after) = some digits := by
  obtain ⟨first, rest, rfl⟩ := List.exists_cons_of_ne_nil nonempty
  have digit : first.isDigit = true := all first (by simp)
  -- The digits are a word, and they end before what follows.
  apply longestWord?_of_ends
  · rw [isWord_eq_isNumber digit, isInteger_digits nonempty all]
    rfl
  · intro c behind more
    -- The next character is no digit and no point, so the longer run is no number.
    have point : c ≠ '.' := by
      rintro rfl
      exact noPoint behind
    obtain ⟨noInteger, noFloat⟩ := not_isNumber_of_digits all nonempty (ends c behind) point more
    rw [List.cons_append] at *
    rw [isWord_eq_isNumber digit, noInteger, noFloat]
    rfl

/-- Digits around a point are no number together with what is no letter. -/
theorem not_isNumber_of_point {whole fraction : List Char} (nonempty : whole ≠ [])
    (allWhole : ∀ d ∈ whole, d.isDigit = true) (allFraction : ∀ d ∈ fraction, d.isDigit = true)
    (ends : continuesName c = false) (more : List Char) :
    isInteger (whole ++ '.' :: (fraction ++ c :: more)) = false ∧
      isFloat (whole ++ '.' :: (fraction ++ c :: more)) = false := by
  -- The point ends the first run of digits, and the character behind the second one decides.
  have noDigit : ∀ d ∈ (c :: more).head?, d.isDigit = false := (endsRun_cons.mpr ends).noDigit
  have stop : ∀ d ∈ ('.' :: (fraction ++ c :: more)).head?, d.isDigit = false := by simp
  obtain ⟨takenWhole, droppedWhole⟩ := takeWhile_run allWhole stop
  obtain ⟨takenFraction, droppedFraction⟩ := takeWhile_run allFraction noDigit
  obtain ⟨-, noFloat, noExponent⟩ := no_ending ends more
  -- Neither an integer nor a float goes on like this.
  constructor
  · unfold isInteger
    rw [takenWhole, droppedWhole, noHex allWhole nonempty rfl]
    simp [endsInteger]
  · unfold isFloat
    rw [takenWhole, droppedWhole]
    simp [droppedFraction, noFloat, noExponent]

/-- Digits around a point are cut off, even where another point follows. -/
theorem longestWord?_float {whole fraction : List Char} (nonempty : whole ≠ [])
    (allWhole : ∀ d ∈ whole, d.isDigit = true) (allFraction : ∀ d ∈ fraction, d.isDigit = true)
    (ends : EndsRun after) :
    longestWord? (whole ++ '.' :: fraction ++ after) = some (whole ++ '.' :: fraction) := by
  obtain ⟨first, rest, rfl⟩ := List.exists_cons_of_ne_nil nonempty
  have digit : first.isDigit = true := allWhole first (by simp)
  -- The digits with their point are a word.
  apply longestWord?_of_ends
  · have float := isFloat_point nonempty allWhole allFraction
    rw [List.cons_append] at *
    rw [isWord_eq_isNumber digit, float, Bool.or_true]
  · intro c behind more
    -- A second point or a letter behind the digits makes no number either.
    obtain ⟨noInteger, noFloat⟩ :=
      not_isNumber_of_point nonempty allWhole allFraction (ends c behind) more
    rw [List.append_assoc, List.cons_append, List.cons_append] at *
    rw [isWord_eq_isNumber digit, noInteger, noFloat]
    rfl

/-- What is in no name starts neither a name nor a number. -/
theorem startsNothing (foreign : continuesName c = false) :
    startsName c = false ∧ c.isDigit = false := by
  -- What starts a name or a number also continues a name.
  constructor <;> rw [← Bool.not_eq_true] <;> intro starts
  · rw [continues_of_startsName starts] at foreign
    cases foreign
  · rw [continues_of_isDigit starts] at foreign
    cases foreign

/-- A word that starts like an operator is one, unless a digit stands behind a point. -/
theorem isWord_eq_isOperator (foreign : continuesName c = false) {rest : List Char}
    (noFraction : c = '.' → ∀ d ∈ rest.head?, d.isDigit = false) :
    isWord (c :: rest) = isOperator (c :: rest) := by
  obtain ⟨noStart, noDigit⟩ := startsNothing foreign
  have noZero : c ≠ '0' := by
    rintro rfl
    cases noDigit
  have noFloat : isFloat (c :: rest) = false := by
    by_cases isPoint : c = '.'
    · -- Only a digit would make a float of a point.
      subst isPoint
      cases rest with
      | nil => simp [isFloat]
      | cons d rest => simp [isFloat, noFraction rfl d rfl]
    · simp [isFloat, noDigit, isPoint]
  -- All other kinds of words start with a letter, an underscore or a digit.
  simp [isWord, isIdentifier, isInteger, noStart, noDigit, noZero, noFloat]

/-- An operator is cut off where no longer one starts with it and the character behind it. -/
theorem longestWord?_operator {op : String} (member : op ∈ operators)
    (alone : ∀ c ∈ after.head?, ∀ other ∈ operators, ¬op.toList ++ [c] <+: other.toList)
    (noFraction : op = "." → ∀ c ∈ after.head?, c.isDigit = false) :
    longestWord? (op.toList ++ after) = some op.toList := by
  have isOperator : isOperator op.toList = true := List.any_eq_true.mpr ⟨op, member, beq_self_eq_true _⟩
  apply longestWord?_of_ends
  · simp [isWord, isOperator]
  · intro c behind more
    -- Of the operators only the point can start a number as well.
    have onlyPoint : ∀ op ∈ operators, op.toList ≠ [] ∧ (op.toList.head? = some '.' → op = ".") := by
      decide +kernel
    obtain ⟨nonempty, point⟩ := onlyPoint op member
    obtain ⟨first, rest, spelt⟩ := List.exists_cons_of_ne_nil nonempty
    -- Operators have no characters of names, so that they start neither names nor numbers.
    have foreign : continuesName first = false :=
      not_continuesName_of_operator isOperator first (by simp [spelt])
    have noDigit : first = '.' → ∀ d ∈ (rest ++ c :: more).head?, d.isDigit = false := by
      rintro rfl
      have whole : op = "." := point (by rw [spelt]; rfl)
      have alone : rest = [] := by
        rw [whole] at spelt
        exact (List.cons.inj spelt).2.symm
      rw [alone]
      rintro d ⟨⟩
      exact noFraction whole c behind
    rw [spelt, List.cons_append, isWord_eq_isOperator foreign noDigit, ← Bool.not_eq_true]
    -- A longer operator would start with this one and the character behind it.
    intro longer
    obtain ⟨other, isOther, same⟩ := List.any_eq_true.mp longer
    refine alone c behind other isOther ⟨more, ?_⟩
    rw [eq_of_beq same, spelt]
    simp

/-- No operator goes on behind another one with what can start an operand, but for two minus signs. -/
theorem alone_of_opens {op : String} (member : op ∈ operators)
    (opens : continuesName c = true ∨ c ∈ ['(', '!', ' '] ∨ c = '-' ∧ op ≠ "-") :
    ∀ other ∈ operators, ¬op.toList ++ [c] <+: other.toList := by
  -- Behind their first character, operators hold few characters, and a minus sign only in one.
  have tails : operators.all (fun other => other.toList.tail.all fun c =>
      !continuesName c && !(['(', '!', ' '].contains c) && (c != '-' || other == "--")) = true := by
    decide +kernel
  have nonempty : ∀ op ∈ operators, op.toList ≠ [] := by decide +kernel
  rintro other isOther ⟨more, same⟩
  obtain ⟨first, rest, spelt⟩ := List.exists_cons_of_ne_nil (nonempty op member)
  have inTail : c ∈ other.toList.tail := by
    rw [← same, spelt]
    simp
  have foreign := List.all_eq_true.mp (List.all_eq_true.mp tails other isOther) c inTail
  simp only [Bool.and_eq_true, Bool.not_eq_true', Bool.or_eq_true, bne_iff_ne, beq_iff_eq] at foreign
  obtain ⟨⟨noName, noOther⟩, onlyMinus⟩ := foreign
  -- A character of a name, a bracket and a blank are in no operator behind its first character.
  rcases opens with continues | another | ⟨minus, differs⟩
  · rw [noName] at continues
    cases continues
  · rw [List.contains_iff_mem.mpr another] at noOther
    cases noOther
  · -- The longer operator is the one of two minus signs, whose first half is one of them.
    obtain rfl := onlyMinus.resolve_left (not_not_intro minus)
    rw [spelt] at same
    have sides : first = '-' ∧ rest = [] := by
      cases rest with
      | nil => simpa using congrArg List.head? same
      | cons second rest => simp at same
    apply differs
    rw [← String.toList_inj, spelt, sides.1, sides.2]
    rfl

/-- Brackets and commas start no longer operator. -/
theorem alone_of_bracket {op : String} (bracket : op ∈ ["(", ")", "[", "]", ",", "?", ":"]) (c : Char) :
    ∀ other ∈ operators, ¬op.toList ++ [c] <+: other.toList := by
  have single : ∀ op ∈ ["(", ")", "[", "]", ",", "?", ":"], ∀ other ∈ operators,
      op.toList <+: other.toList → other = op := by decide +kernel
  -- An operator that starts with one of them is that one, and has no room for another character.
  intro other isOther longer
  have same := single op bracket other isOther ((List.prefix_append _ _).trans longer)
  have fits := longer.length_le
  rw [same, List.length_append, List.length_singleton] at fits
  omega

end Ends

end Shading.Glsl

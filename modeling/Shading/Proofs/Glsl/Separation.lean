import Shading.Proofs.Glsl.Lexical
import Shading.Proofs.Glsl.Precedence
import Shading.Proofs.Grammar.Contents

/-! Written expressions are cut into the tokens that were written, unless two of them grow together. -/

namespace Shading.Glsl

open Cursor

/-- The texts of the tokens among marks. -/
def tokens (marks : List Mark) : List String :=
  marks.filterMap fun
    | .token text => some text
    | .space | .newline => none

/-- Each token is the longest word at the place where it is written. -/
def Separate : List Mark → Prop
  | [] => True
  | .token text :: rest =>
    longestWord? (text.toList ++ chars rest) = some text.toList ∧ Separate rest
  | .space :: rest | .newline :: rest => Separate rest

section Words

variable {c : Char} {rest after : List Char} {marks more : List Mark} {text : String}

/-- Words start with what is no space. -/
theorem isSpace_of_isWord (isWord : isWord (c :: rest) = true) : isSpace c = false := by
  -- Names and numbers start with visible characters, and so do all operators.
  have visible : operators.all (·.toList.head?.all (!isSpace ·)) = true := by decide +kernel
  have noSpace : ∀ c : Char, isSpace c = true →
      startsName c = false ∧ c.isDigit = false ∧ c ≠ '0' ∧ c ≠ '.' := by
    intro c space
    simp only [isSpace, List.contains_iff_mem, List.mem_cons, List.not_mem_nil, or_false] at space
    rcases space with rfl | rfl | rfl | rfl | rfl | rfl <;> decide
  rw [← Bool.not_eq_true]
  intro space
  obtain ⟨noName, noDigit, noZero, noPoint⟩ := noSpace c space
  -- Neither a name nor a number starts like this, and so it would be an operator.
  have isOperator : isOperator (c :: rest) = true := by
    simpa [Glsl.isWord, isIdentifier, isInteger, isFloat, noName, noDigit, noZero, noPoint] using isWord
  obtain ⟨op, member, same⟩ := List.any_eq_true.mp isOperator
  have shown := List.all_eq_true.mp visible op member
  rw [eq_of_beq same, List.head?_cons, Option.all_some, space] at shown
  cases shown

/-- The words behind some characters are those of what is behind them. -/
theorem wordsFrom_length (skipped rest : List Char) :
    wordsFrom skipped.length (skipped ++ rest) = wordsFrom 0 rest := by
  -- Each character takes one off the number of those to be skipped.
  induction skipped with
  | nil => rfl
  | cons c skipped ih => exact ih

/-- Spaces are between words. -/
theorem wordsFrom_space (space : isSpace c = true) (rest : List Char) :
    wordsFrom 0 (c :: rest) = wordsFrom 0 rest := by
  -- Spaces belong to no word.
  rw [wordsFrom, if_pos space]

/-- A text is cut into a word and others where the word is the longest one, and others are behind it. -/
theorem wordsFrom_eq_cons_iff {words : List String} (isWord : isWord text.toList = true) :
    wordsFrom 0 (text.toList ++ after) = some (text :: words) ↔
      longestWord? (text.toList ++ after) = some text.toList ∧ wordsFrom 0 after = some words := by
  -- The first character of the word is no blank, so that nothing is skipped.
  cases spelt : text.toList with
  | nil =>
    rw [spelt] at isWord
    cases isWord
  | cons c rest =>
    rw [spelt] at isWord
    rw [List.cons_append, wordsFrom, if_neg (by simp [isSpace_of_isWord isWord])]
    -- The first word of the text is the longest one at its front.
    cases found : longestWord? (c :: (rest ++ after)) with
    | none => simp
    | some word =>
      constructor
      · intro cut
        obtain ⟨others, rest_cut, same⟩ := Option.map_eq_some_iff.mp cut
        obtain ⟨first, rfl⟩ := List.cons.inj same
        have same : word = c :: rest := by
          rw [← spelt, ← first, String.toList_ofList]
        subst same
        -- What is left to skip is just the rest of the word.
        refine ⟨rfl, ?_⟩
        rwa [← wordsFrom_length rest after]
      · rintro ⟨same, others⟩
        obtain rfl := Option.some.inj same
        show (wordsFrom rest.length (rest ++ after)).map _ = _
        rw [wordsFrom_length, others, Option.map_some, ← spelt, String.ofList_toList]

/-- A text is cut into words only. -/
theorem isWord_of_mem_wordsFrom {skipped : Nat} {characters : List Char} {words : List String}
    (cut : wordsFrom skipped characters = some words) (member : text ∈ words) :
    isWord text.toList = true := by
  -- Words come from the places where nothing is skipped; all other characters only pass.
  induction characters generalizing skipped words with
  | nil =>
    cases skipped <;> cases cut <;> cases member
  | cons c rest ih =>
    cases skipped with
    | succ skipped => exact ih cut member
    | zero =>
      rw [wordsFrom] at cut
      split at cut
      · exact ih cut member
      · split at cut
        · cases cut
        · rename_i word found
          obtain ⟨others, behind, rfl⟩ := Option.map_eq_some_iff.mp cut
          -- The word at the front was found as a word, and the others come from behind it.
          rcases List.mem_cons.mp member with rfl | later
          · rw [String.toList_ofList]
            exact isWord_of_longestUpTo found
          · exact ih behind later

/-- A written text is cut into its tokens exactly where all of them are separate. -/
theorem words?_render_iff (marks : List Mark) :
    words? (render marks) = some (tokens marks) ↔ Separate marks := by
  show wordsFrom 0 (chars marks) = _ ↔ _
  -- Each token is compared with the word at its front, and each blank is passed over.
  induction marks with
  | nil => simp [wordsFrom, tokens, Separate]
  | cons mark marks ih =>
    cases mark with
    | token text =>
      rw [chars_token, Separate, ← ih]
      constructor
      · intro cut
        -- What is cut is a word, which makes it the longest one at its place.
        exact (wordsFrom_eq_cons_iff (isWord_of_mem_wordsFrom cut List.mem_cons_self)).mp cut
      · rintro ⟨longest, others⟩
        exact (wordsFrom_eq_cons_iff (isWord_of_longestUpTo longest)).mpr ⟨longest, others⟩
    | space =>
      rw [chars_space, wordsFrom_space rfl]
      exact ih
    | newline =>
      have written : chars (.newline :: marks) = '\n' :: chars marks := by
        simp [chars, render, Mark.text]
      rw [written, wordsFrom_space rfl]
      exact ih

/-- Where marks are separate, those behind some of them are as well. -/
theorem Separate.right (separate : Separate (marks ++ more)) : Separate more := by
  -- What a token is followed by is all that is behind it, to the end.
  induction marks with
  | nil => exact separate
  | cons mark marks ih =>
    cases mark with
    | token => exact ih separate.2
    | space | newline => exact ih separate

end Words

end Shading.Glsl

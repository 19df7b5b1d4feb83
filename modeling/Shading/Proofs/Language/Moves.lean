import Mathlib.Algebra.Group.Int.Defs
import Mathlib.Algebra.Group.Nat.Defs
import Mathlib.Data.List.Basic
import Shading.Language.TokenStream
import Shading.Proofs.Lexer.Progress

/-! Moving over the words of a source: a stream always stands at one of them, and finds back to it. -/

namespace Shading.TokenStream

/-- Something that is asked of a stream. -/
inductive Call
  | advance
  | seek (position : Nat)
  | peek (offset : Int)

/-- The stream after a call. -/
def step (stream : TokenStream) : Call → TokenStream
  | .advance => stream.advance
  | .seek position => stream.seek position
  -- Looking at a word elsewhere moves nothing.
  | .peek _ => stream

/-- The stream after a run of calls. -/
def after (stream : TokenStream) (run : List Call) : TokenStream :=
  run.foldl step stream

/-- What is seen of a stream after a call, and the word that was looked at elsewhere. -/
structure Answer where
  position : Nat
  current : Token
  hasMore : Bool
  elsewhere : Option Token

/-- What a call is answered. -/
def answer (stream : TokenStream) (call : Call) : Answer :=
  let next := stream.step call
  let elsewhere := match call with
    | .peek offset => some (stream.peek offset)
    | .advance | .seek _ => none
  ⟨next.position, next.current, next.hasMore, elsewhere⟩

/-- What the calls of a run are answered, one after the other. -/
def answers (stream : TokenStream) : List Call → List Answer
  | [] => []
  | call :: later => stream.answer call :: (stream.step call).answers later

/-- The position of the nearest of some words, of which there is at least one. -/
def nearest (count : Nat) (position : Int) : Nat :=
  (max 0 (min position (count - 1))).toNat

/-- A stream over words that stands at one of them. -/
structure StandsIn (tokens : List Token) (stream : TokenStream) : Prop where
  same : stream.tokens = tokens.toArray
  within : stream.position < tokens.length

variable {tokens : List Token} {stream : TokenStream}

namespace StandsIn

/-- The last position is that of the last word. -/
theorem last_eq (stands : StandsIn tokens stream) : stream.last = tokens.length - 1 := by
  -- The words of the stream are those of the source.
  rw [last, stands.same, List.size_toArray]

/-- The word at the position of a word is that word. -/
theorem tokenAt (stands : StandsIn tokens stream) {position : Nat} (inside : position < tokens.length) :
    tokens[position]? = some (stream.tokenAt position) := by
  -- Inside the words no default is needed.
  simp [TokenStream.tokenAt, stands.same, inside]

/-- Moving to a position, be it that of a word or not, ends at a word. -/
theorem seek (stands : StandsIn tokens stream) (position : Nat) :
    StandsIn tokens (stream.seek position) := by
  refine ⟨stands.same, ?_⟩
  -- There is a last word, as the stream stands at one.
  have within := stands.within
  have last := stands.last_eq
  simp only [TokenStream.seek]
  omega

/-- Every call leaves a stream at one of its words. -/
theorem step (stands : StandsIn tokens stream) (call : Call) : StandsIn tokens (stream.step call) := by
  -- Advancing is moving to the next position, and looking ahead moves nothing.
  cases call with
  | advance => exact stands.seek (stream.position + 1)
  | seek position => exact stands.seek position
  | peek => exact stands

/-- Every run of calls leaves a stream at one of its words. -/
theorem after (stands : StandsIn tokens stream) (run : List Call) :
    StandsIn tokens (stream.after run) := by
  -- By the calls of the run, each from where the one before it left the stream.
  induction run generalizing stream with
  | nil => exact stands
  | cons call run ih => exact ih (stands.step call)

/-- The position that is moved to is the one asked for, or the last one if that is before it. -/
theorem seek_eq (stands : StandsIn tokens stream) (position : Nat) : stream.seek position =
    { stream with position := if position < tokens.length then position else tokens.length - 1 } := by
  -- The last position is clamped to, and the words are never empty.
  have last := stands.last_eq
  have within := stands.within
  unfold TokenStream.seek
  congr 1
  split <;> omega

/-- Moving back to the position of a stream gives that stream again. -/
theorem seek_after (stands : StandsIn tokens stream) (run : List Call) :
    (stream.after run).seek stream.position = stream := by
  have moved := stands.after run
  -- Only the position can have changed, and it is that of a word.
  rw [moved.seek_eq, if_pos stands.within, moved.same, ← stands.same]

/-- The word that is looked at elsewhere is the nearest one there is. -/
theorem peek (stands : StandsIn tokens stream) (offset : Int) :
    tokens[nearest tokens.length (stream.position + offset)]? = some (stream.peek offset) := by
  have last := stands.last_eq
  have within := stands.within
  -- Both ends are met in one order here and in the other order there.
  have same : min (stream.position + offset).toNat stream.last =
      nearest tokens.length (stream.position + offset) := by
    unfold nearest
    omega
  rw [TokenStream.peek, same]
  refine stands.tokenAt ?_
  unfold nearest
  omega

/-- Nothing but the end is left exactly at the last position. -/
theorem hasMore_eq_false_iff (stands : StandsIn tokens stream) (ends : Grammar.EndsOnce tokens) :
    stream.hasMore = false ↔ stream.position + 1 = tokens.length := by
  obtain ⟨words, line, rfl, before⟩ := ends
  have current := stands.tokenAt stands.within
  have within := stands.within
  simp only [List.length_append, List.length_singleton] at within ⊢
  rw [hasMore, Bool.not_eq_false', TokenStream.current]
  rcases Nat.lt_or_eq_of_le (Nat.le_of_lt_succ within) with inside | atEnd
  · -- A word before the last one is not the end.
    rw [List.getElem?_append_left inside] at current
    have notEnd := before _ (List.mem_of_getElem? current)
    simp only [notEnd, Bool.false_eq_true, false_iff]
    omega
  · -- At the last position there is the end itself.
    rw [atEnd, List.getElem?_concat_length] at current
    simp [atEnd, ← Option.some.inj current, Token.isEnd]

end StandsIn

section Words

/-- The position of the nearest word as it is found in words of 64 bits. -/
def nearestWord (position last : UInt64) (offset : Int64) : UInt64 :=
  -- The sum has a sign, and the position that comes of it has none.
  let target := position.toInt64 + offset
  if target < 0 then 0 else min target.toUInt64 last

variable {position last : UInt64} {offset : Int64}

/-- A number that fits is the same with a sign. -/
theorem toInt_toInt64 (small : position.toNat < 2 ^ 63) :
    position.toInt64.toInt = position.toNat := by
  -- The topmost bit is the sign, and it is not set.
  have half : 2 * position.toBitVec.toNat < 2 ^ 64 := by
    rw [UInt64.toNat_toBitVec]
    omega
  exact BitVec.toInt_eq_toNat_of_lt half

/-- As long as the sum does not overflow, the position is that of the nearest word. -/
theorem toNat_nearestWord (small : position.toNat < 2 ^ 63)
    (fits : position.toNat + offset.toInt < 2 ^ 63) :
    (nearestWord position last offset).toNat =
      nearest (last.toNat + 1) (position.toNat + offset.toInt) := by
  -- From below the sum cannot overflow, since the position has no sign.
  have least := offset.le_toInt
  have sum : (position.toInt64 + offset).toInt = position.toNat + offset.toInt := by
    rw [Int64.toInt_add, toInt_toInt64 small, Int.bmod_eq_of_le] <;> omega
  simp only [nearestWord, nearest]
  generalize position.toInt64 + offset = target at sum ⊢
  -- A negative sum is clamped to the first word, and any other one to the last.
  split
  · rename_i negative
    rw [Int64.lt_iff_toInt_lt, sum] at negative
    have zero : (0 : Int64).toInt = 0 := rfl
    have none : (0 : UInt64).toNat = 0 := rfl
    omega
  · rename_i nonneg
    rw [Int64.not_lt] at nonneg
    have same : target.toUInt64.toNat = (position.toNat + offset.toInt).toNat := by
      rw [Int64.toNat_toUInt64_of_le nonneg, ← Int64.toNat_toInt, sum]
    rw [UInt64.toNat_min, same]
    omega

end Words

/-- What is found of a stream over words at any time. -/
structure Clamped (tokens : List Token) (stream : TokenStream) : Prop where
  unchanged : stream.tokens = tokens.toArray
  current : tokens[stream.position]? = some stream.current
  peek : ∀ offset : Int,
    tokens[nearest tokens.length (stream.position + offset)]? = some (stream.peek offset)
  /-- Nothing else is found by computing in words of 64 bits, where their sum does not overflow. -/
  peekWord : tokens.length < 2 ^ 63 → ∀ (position last : UInt64) (offset : Int64),
    position.toNat = stream.position → last.toNat = stream.last →
    position.toNat + offset.toInt < 2 ^ 63 →
    tokens[(nearestWord position last offset).toNat]? = some (stream.peek offset.toInt)
  hasMore : stream.hasMore = false ↔ stream.position + 1 = tokens.length
  advance : stream.position + 1 < tokens.length →
    stream.advance = { stream with position := stream.position + 1 }
  stays : stream.position + 1 = tokens.length → stream.advance = stream
  seek : ∀ position, stream.seek position =
    { stream with position := if position < tokens.length then position else tokens.length - 1 }
  returns : ∀ run, (stream.after run).seek stream.position = stream
  resumes : ∀ run later,
    ((stream.after run).seek stream.position).answers later = stream.answers later

/-- A stream that stands at one of the words of a source is found to do so in every respect. -/
theorem StandsIn.clamped (stands : StandsIn tokens stream) (ends : Grammar.EndsOnce tokens) :
    Clamped tokens stream where
  unchanged := stands.same
  current := stands.tokenAt stands.within
  peek := stands.peek
  peekWord := by
    intro few position last offset samePosition sameLast fits
    have within := stands.within
    have lastOne := stands.last_eq
    have count : last.toNat + 1 = tokens.length := by omega
    rw [toNat_nearestWord (by omega) fits, count, samePosition]
    exact stands.peek offset.toInt
  -- There is more as long as the word at the position is not the end.
  hasMore := stands.hasMore_eq_false_iff ends
  advance := by
    intro inside
    rw [TokenStream.advance, stands.seek_eq, if_pos inside]
  stays := by
    intro atEnd
    rw [TokenStream.advance, stands.seek_eq, if_neg (by omega)]
    -- The last position is the one that the stream has.
    have same : tokens.length - 1 = stream.position := by omega
    rw [same]
  seek := stands.seek_eq
  returns := stands.seek_after
  resumes run later := by rw [stands.seek_after]

/--
A stream over the words of a source always stands at one of them, whatever it was asked for.

The words never change, and the last of them is the only end.
What is looked at elsewhere is the nearest word there is, and moving beyond the last one ends at it.
From every position that was left, the stream goes on as it did when it was there before.
-/
theorem clamped_after {source : String} (cut : tokenize source = .ok tokens) :
    (∃ words line, tokens = words ++ [⟨.endOfFile, line⟩] ∧
      ∀ word ∈ words, word.lexeme ≠ .endOfFile) ∧
    ∃ start, ofSource source = .ok start ∧ start.position = 0 ∧
      ∀ run, Clamped tokens (start.after run) := by
  have ends := tokenize_endsOnce cut
  refine ⟨?_, ⟨tokens.toArray, 0⟩, ?_, rfl, fun run => ?_⟩
  · -- Only the last word is the end, so that every other one is of another kind.
    obtain ⟨words, line, split, before⟩ := ends
    refine ⟨words, line, split, fun word member isEnd => ?_⟩
    simpa [Token.isEnd, isEnd] using before word member
  · rw [ofSource, cut]
    rfl
  · -- The first word is there at the start, as at least the end is among the words.
    have start : StandsIn tokens ⟨tokens.toArray, 0⟩ := by
      obtain ⟨first, rest, rfl⟩ := ends.exists_cons
      exact ⟨rfl, Nat.succ_pos _⟩
    exact (start.after run).clamped ends

/-- A stream that was moved far beyond its last word still looks at the first one, and finds back. -/
theorem clamped_after_beyond :
    ∃ tokens start, tokenize "x = 1;" = .ok tokens ∧ ofSource "x = 1;" = .ok start ∧
      let run : List Call := [.advance, .peek 1, .seek (2 ^ 64 - 1), .advance]
      let beyond := start.after run
      Clamped tokens beyond ∧ beyond.position = 4 ∧ beyond.hasMore = false ∧
        tokens[0]? = some (beyond.peek (-10)) ∧
        (beyond.seek 1).answers [.peek 1] = (start.after [.advance]).answers [.peek 1] := by
  let tokens : List Token := [⟨.identifier "x", 1⟩, ⟨.symbol .assign, 1⟩, ⟨.integer "1" 1, 1⟩,
    ⟨.symbol .semicolon, 1⟩, ⟨.endOfFile, 1⟩]
  let run : List Call := [.advance, .peek 1, .seek (2 ^ 64 - 1), .advance]
  have cut : tokenize "x = 1;" = .ok tokens := rfl
  obtain ⟨-, start, opened, -, clamped⟩ := clamped_after cut
  obtain rfl : ⟨tokens.toArray, 0⟩ = start := Except.ok.inj opened
  -- The largest position of all is clamped to the one of the end.
  have last : (TokenStream.after ⟨tokens.toArray, 0⟩ run).position = 4 := rfl
  have first := (clamped run).peek (-10)
  rw [last] at first
  refine ⟨tokens, _, cut, opened, clamped run, last, (clamped run).hasMore.mpr rfl, first, ?_⟩
  -- The position is that after the first of the calls, and the others came since.
  exact (clamped [.advance]).resumes [.peek 1, .seek (2 ^ 64 - 1), .advance] [.peek 1]

end Shading.TokenStream

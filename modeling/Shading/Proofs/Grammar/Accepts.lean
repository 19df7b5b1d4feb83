import Shading.Program.Parse
import Shading.Proofs.Grammar.Limits
import Shading.Proofs.Grammar.UnitComplete
import Shading.Proofs.Grammar.UnitSound
import Shading.Proofs.Lexer.Progress

/-! Sources are read exactly when their words are a sentence of the grammar. -/

namespace Shading.Grammar

open Source

variable {room : Nat} {tokens : List Token}

/-- A sentence is read whole within a number of levels, or nested too deeply for it. -/
theorem Sentence.read (sentence : Sentence tokens) (room : Nat) :
    (∃ rest, (sourceItems room tokens).rest = .ok rest) ∨
      IsTooDeep (sourceItems room tokens).rest := by
  obtain ⟨items, needed, line, spans⟩ := sentence
  -- Levels enough for both: the sentence fits, and the given number of them is the narrower one.
  have whole := sourceItems_complete (spans.mono (Nat.le_max_right room needed))
  rcases sourceItems_narrows (Nat.le_max_left room needed) tokens with same | tooDeep
  · exact .inl ⟨_, by rw [same, whole]⟩
  · exact .inr tooDeep

/-- A source of a single part is read as this part, or nothing of it is if it is nested too deeply. -/
theorem sourceItems_single {wider line : Nat} {item : Item (List SourceStatement)}
    (spans : PlainSpan wider item tokens [⟨.endOfFile, line⟩]) (room : Nat) :
    sourceItems room tokens = ⟨[.always item], .ok [⟨.endOfFile, line⟩]⟩ ∨
      ∃ place, sourceItems room tokens = ⟨[], .error ⟨place, .tooDeep⟩⟩ := by
  -- The part alone is read as it is within enough levels, or is cut short.
  have read : plainItem room tokens = .ok (item, [⟨.endOfFile, line⟩]) ∨
      IsTooDeep (plainItem room tokens) := by
    have whole := plainItem_complete (spans.mono (Nat.le_max_right room wider))
    rcases plainItem_narrows (Nat.le_max_left room wider) tokens with same | tooDeep
    · exact .inl (same.trans whole)
    · exact .inr tooDeep
  -- The part takes a word, so that the loop over parts makes a step.
  have some : tokens.length = tokens.length - 1 + 1 := by
    have fewer := spans.shorter
    omega
  unfold sourceItems
  rw [some]
  simp only [untilEnd, spans.startsPart.noEnd, Bool.false_eq_true, if_false, Source.item,
    spans.noTest]
  -- Behind the part there is only the end, so that the loop is over.
  rcases read with read | ⟨place, tooDeep⟩
  · left
    have atEnd : ∀ limit, untilEnd (Source.item room (itemParsers room)) limit
        [⟨.endOfFile, line⟩] = ⟨[], .ok [⟨.endOfFile, line⟩]⟩ := by
      intro limit
      cases limit <;> simp [untilEnd, Token.isEnd]
    simp [read, Except.map, Outcome.ofResult, Outcome.andThen, atEnd]
  · right
    exact ⟨place, by simp [tooDeep, Except.map, Outcome.ofResult, Outcome.fault, Outcome.andThen]⟩

/-- A sentence ends with the word for the end of a source, which is the only one of its kind. -/
theorem Sentence.endsOnce (sentence : Sentence tokens) : EndsOnce tokens := by
  -- What remains behind the parts is the end, and none of the words in front of it is one.
  obtain ⟨items, room, line, spans⟩ := sentence
  obtain ⟨words, rfl, noEnd⟩ := spans.remains
  exact ⟨words, line, rfl, noEnd⟩

/-- The parts of a source are declared first, and then the fault of the reading is reported. -/
theorem ofTokens_eq (name : String) (defines : Defines) :
    Program.ofTokens room name defines tokens =
      match Draft.declareAll ⟨.empty name defines, false⟩
        (activeItems defines.isDefined (sourceItems room tokens).completed) with
      | .error cause => .error (.declaration cause)
      | .ok draft =>
        match (sourceItems room tokens).rest with
        | .error cause => .error (.grammar cause)
        | .ok _ => .ok draft.program := by
  -- Declaring is the only step that may fail in front of the fault of the reading.
  dsimp only [Program.ofTokens, Program.ofOutcome]
  cases Draft.declareAll ⟨.empty name defines, false⟩
    (activeItems defines.isDefined (sourceItems room tokens).completed) with
  | error => rfl
  | ok => cases (sourceItems room tokens).rest <;> rfl

/-- What sources are read as is declared of their words. -/
theorem parse_eq_ofTokens {source : String} (cut : tokenize source = .ok tokens) (name : String)
    (defines : Defines) :
    Program.parse name defines source = Program.ofTokens maxNesting name defines tokens := by
  -- The words are known, so the first step of reading succeeds.
  unfold Program.parse
  rw [cut]
  rfl

/--
Exactly the sentences of the grammar are accepted.

The words of every program are a sentence, under whichever defines it was read.
A sentence fails only for what it declares or for being nested too deeply.
-/
theorem parse_accepts_sentences {source : String} (cut : tokenize source = .ok tokens)
    (name : String) (defines : Defines) :
    (∀ program, Program.parse name defines source = .ok program → Sentence tokens) ∧
      (Sentence tokens → ∀ error, Program.parse name defines source = .error error →
        (∃ cause, error = .declaration cause) ∨ ∃ line, error = .grammar ⟨line, .tooDeep⟩) := by
  -- Success says that all words were read as parts of a source.
  rw [parse_eq_ofTokens cut]
  constructor
  · intro program read
    rw [ofTokens_eq] at read
    split at read
    · cases read
    · split at read
      · cases read
      · rename_i whole
        obtain ⟨spans, line, rfl⟩ := sourceItems_sound (tokenize_endsOnce cut) whole
        exact ⟨_, maxNesting, line, spans⟩
  · intro sentence error failed
    rw [ofTokens_eq] at failed
    split at failed
    · rename_i cause _
      exact .inl ⟨cause, (Except.error.inj failed).symm⟩
    · right
      -- Back again, a sentence is read as a whole unless it is too deep.
      rcases sentence.read maxNesting with ⟨rest, whole⟩ | ⟨line, tooDeep⟩
      · simp [whole] at failed
      · simp only [tooDeep, Except.error.injEq] at failed
        exact ⟨line, failed.symm⟩

/-- The words of one stage are a sentence, and so are those of two, whose fault is the second one. -/
theorem parse_accepts_stages :
    let repeated : ParseError := .declaration ⟨1, .duplicateStage .vertex⟩
    Sentence [word "vertex" 1, sign .leftBrace 1, word "discard" 1, sign .semicolon 1,
        sign .rightBrace 1, ⟨.endOfFile, 1⟩] ∧
      Program.parse "twice" .empty "vertex \x7b\x7d vertex \x7b\x7d" = .error repeated ∧
      ((∃ cause, repeated = .declaration cause) ∨ ∃ line, repeated = .grammar ⟨line, .tooDeep⟩) := by
  -- Both sources are closed, so that their words and their answers are computed.
  have failed : Program.parse "twice" .empty "vertex \x7b\x7d vertex \x7b\x7d" =
      .error (.declaration ⟨1, .duplicateStage .vertex⟩) := rfl
  -- An empty stage is a part.
  have stage : ∀ rest, PlainSpan 1 (.stage .vertex [] 1)
      (word "vertex" 1 :: sign .leftBrace 1 :: sign .rightBrace 1 :: rest) rest :=
    fun _ => @PlainSpan.stage 1 .vertex _ _ _ _ (.block .endBlock)
  refine ⟨?_, failed, ?_⟩
  · have cut : tokenize "vertex \x7b discard; \x7d" = .ok _ := rfl
    exact (parse_accepts_sentences cut "once" .empty).1 _ rfl
  · have cut : tokenize "vertex \x7b\x7d vertex \x7b\x7d" = .ok _ := rfl
    exact (parse_accepts_sentences cut "twice" .empty).2
      ⟨_, 1, 1, .next (.plain (stage _)) (.next (.plain (stage _)) .ended)⟩ _ failed

end Shading.Grammar

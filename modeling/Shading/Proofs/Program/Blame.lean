import Shading.Proofs.Grammar.UnitBlame
import Shading.Proofs.Program.Syntax

/-! Syntax errors blame the first word that does not fit what stands before it. -/

namespace Shading

/-- A word that is named for not being what is expected is the one that was found. -/
theorem GrammarError.Cause.Names.eq_found {expected : Expectation} {found lexeme : Lexeme}
    (names : (GrammarError.Cause.unexpected expected found).Names lexeme) : lexeme = found := by
  -- The found word is the only lexeme that such a cause names.
  cases names
  rfl

namespace Grammar

open Source

/-- Words that a sentence of the grammar may start with, however deeply nested. -/
def Viable (words : List Token) : Prop :=
  ∃ more, Sentence (words ++ more)

/-- Words that are refused for themselves, whatever stands behind them, start no sentence. -/
theorem not_viable {words : List Token} {fault : GrammarError} (shallow : fault.cause ≠ .tooDeep)
    (refused : ∀ more, asWhole (sourceItems maxNesting) (words ++ more) = .error fault) :
    ¬ Viable words := by
  rintro ⟨more, sentence⟩
  have same := refused more
  -- A sentence is read, or it is nested too deeply, and neither is this fault.
  rcases sentence.read maxNesting with ⟨rest, whole⟩ | ⟨line, tooDeep⟩
  · simp [asWhole, Outcome.toResult, Except.map, whole] at same
  · obtain rfl : _ = fault := by simpa [asWhole, Outcome.toResult, Except.map, tooDeep] using same
    exact shallow rfl

/-- What stands before a blamed word is viable, and so it is with the word if it is early. -/
theorem Refuses.viable {parser : Parser (List SourceItem)} {fault : GrammarError}
    {before after fitting : List Token} (refuses : Refuses ItemsWhole parser fault before after)
    (fits : Fitting fault after fitting) : Viable (before ++ fitting) := by
  -- A whole phrase is completed behind the blamed word, and the end makes it a sentence.
  obtain ⟨_, more, whole⟩ := refuses.completes fits
  refine ⟨more ++ [⟨.endOfFile, 1⟩], ?_⟩
  simpa only [List.append_assoc] using whole.sentence

/-- A blamed word is one of the source. -/
theorem Refuses.endsOnce {parser : Parser (List SourceItem)} {fault : GrammarError}
    {before after : List Token} (refuses : Refuses ItemsWhole parser fault before after)
    (ends : EndsOnce (before ++ after)) : EndsOnce after := by
  -- The words in front belong to a phrase that can be completed, so that none of them is the end.
  obtain ⟨_, more, whole⟩ := refuses.completes .nothing
  exact ends.remains ⟨before, rfl, fun token member =>
    whole.noEnd token (List.mem_append_left _ member)⟩

end Grammar

namespace Program

open Grammar Source

/-- A source with a fault in the order of its words has words, the reading of which ends in the fault. -/
theorem exists_tokens_of_grammar {name source : String} {defines : Defines} {fault : GrammarError}
    (failed : parse name defines source = .error (.grammar fault)) :
    ∃ tokens, tokenize source = .ok tokens ∧
      asWhole (sourceItems maxNesting) tokens = .error fault := by
  -- The error comes neither from the declarations nor from the draft.
  have found : syntaxFault? source = some (.grammar fault) := by
    rcases parse_cases name defines source with
      ⟨_, same⟩ | ⟨_, found, same⟩ | ⟨-, _, same⟩ <;> cases failed.symm.trans same
    exact found
  -- A fault in the characters is of another kind, so the source is cut into words.
  unfold syntaxFault? at found
  split at found
  · cases found
  · rename_i tokens cut
    refine ⟨tokens, cut, ?_⟩
    split at found
    · rename_i ended
      cases found
      rw [asWhole, Outcome.toResult, ended]
      rfl
    · cases found

/--
Syntax errors blame the first word that is impossible.

It is a word of the source that has the line of the error and that the error names.
What stands before it is the start of a sentence of the grammar, and with the word it is not.
A type that is not called is blamed before the word behind it, which is the impossible one.
-/
theorem parse_blames {name source : String} {defines : Defines} {fault : GrammarError}
    (failed : parse name defines source = .error (.grammar fault))
    (shallow : fault.cause ≠ .tooDeep) :
    ∃ before token after, tokenize source = .ok (before ++ token :: after) ∧
      fault.line = token.line ∧ fault.cause.Names token.lexeme ∧ Viable before ∧
      (¬ fault.cause.IsEarly → ¬ Viable (before ++ [token])) ∧
      (fault.cause.IsEarly → Viable (before ++ [token]) ∧
        ∃ next more, after = next :: more ∧ ¬ Viable (before ++ [token, next])) := by
  obtain ⟨tokens, cut, failed⟩ := exists_tokens_of_grammar failed
  obtain ⟨before, after, rfl, refuses⟩ :=
    (sourceItems_blames maxNesting tokens).refuses failed shallow
  -- The end of the source is not read over, so a word is left to be blamed.
  have ends := refuses.endsOnce (tokenize_endsOnce cut)
  obtain ⟨token, after, rfl⟩ := ends.exists_cons
  refine ⟨before, token, after, cut, refuses.reports.line, refuses.reports.names, ?_,
    fun late => ?_, fun early => ⟨refuses.viable (.uncalled early), ?_⟩⟩
  · simpa using refuses.viable .nothing
  · -- Whatever stands behind the word, the reading ends at it with the same fault.
    refine not_viable shallow fun more => ?_
    rw [List.append_assoc]
    exact refuses.refused ⟨rfl, fun early => absurd early late⟩
  · -- A type is not the end of the source.
    have noEnd : token.isEnd = false := by
      obtain ⟨type, same, -⟩ := early
      have isType : token.lexeme = .identifier type := (same ▸ refuses.reports.names).eq_found
      simp [Token.isEnd, isType]
    obtain ⟨next, more, rfl⟩ := (ends.remains (.one noEnd)).exists_cons
    refine ⟨next, more, rfl, not_viable shallow fun more => ?_⟩
    rw [List.append_assoc]
    exact refuses.refused ⟨rfl, fun _ => rfl⟩

/-- The type that is not called is what a sentence may start with, but not with the semicolon. -/
theorem parse_blames_uncalled :
    let source := "vertex \x7b\n  x = float;\n\x7d"
    let uncalled : GrammarError := ⟨2, .unexpected .expression (.identifier "float")⟩
    parse "uncalled" .empty source = .error (.grammar uncalled) ∧ uncalled.cause ≠ .tooDeep ∧
      ∃ before next more,
        tokenize source = .ok (before ++ word "float" 2 :: next :: more) ∧
        Viable (before ++ [word "float" 2]) ∧ ¬ Viable (before ++ [word "float" 2, next]) := by
  have failed : parse "uncalled" .empty "vertex \x7b\n  x = float;\n\x7d" =
      .error (.grammar ⟨2, .unexpected .expression (.identifier "float")⟩) := rfl
  intro source uncalled
  -- The nesting is not what is wrong, and the fault is an early one.
  have shallow : uncalled.cause ≠ .tooDeep := nofun
  have early : uncalled.cause.IsEarly := ⟨_, rfl, rfl⟩
  -- The word that is blamed is the one that the error names, on the line of the error.
  obtain ⟨before, ⟨lexeme, line⟩, after, cut, same, names, -, -, refused⟩ :=
    parse_blames failed shallow
  obtain rfl : 2 = line := same
  obtain rfl : lexeme = .identifier "float" := names.eq_found
  obtain ⟨viable, next, more, rfl, impossible⟩ := refused early
  exact ⟨failed, shallow, before, next, more, cut, viable, impossible⟩

end Program

end Shading

import Shading.Proofs.Grammar.Relining
import Shading.Proofs.Lexer.Places
import Shading.Proofs.Lexer.Respacing

/-! Lines of whole sources: layout has no part in programs, and errors name lines that there are. -/

namespace Shading

namespace Grammar.Relining

variable (relining : Relining) {room : Nat} {tokens : List Token}

/-- The same error on its other line. -/
def error : ParseError → ParseError
  | .lexical fault => .lexical ⟨relining.line fault.line, fault.cause⟩
  | .grammar fault => .grammar (relining.fault fault)
  | .declaration fault => .declaration ⟨relining.line fault.line, fault.cause⟩

/-- The same fault in a declaration on its other line. -/
def declarationFault (fault : DeclarationError) : DeclarationError :=
  ⟨relining.line fault.line, fault.cause⟩

mutual

/-- Defines choose the same parts of a source on other lines. -/
theorem select_sourceItem (isDefined : String → Bool) :
    ∀ part, (relining.sourceItem part).select isDefined =
      (part.select isDefined).map relining.item
  | .always i => by simp [sourceItem, Guarded.select]
  | .choice tested yes no => by
    rw [sourceItem, Guarded.select, Guarded.select]
    -- Lines have no part in which region is taken.
    split
    · exact selectAll_sourceItems isDefined yes
    · exact selectAll_sourceItems isDefined no

/-- Defines choose the same of a list of parts on other lines. -/
theorem selectAll_sourceItems (isDefined : String → Bool) :
    ∀ parts, selectAll isDefined (relining.sourceItems parts) =
      (selectAll isDefined parts).map relining.item
  -- Part by part, along the recursion of the selection.
  | [] => by simp [sourceItems, selectAll]
  | part :: rest => by
    rw [sourceItems, selectAll, selectAll, select_sourceItem isDefined part,
      selectAll_sourceItems isDefined rest, List.map_append]

end

/-- The parts that count are the same on other lines. -/
theorem activeItems_map (isDefined : String → Bool) (items : List SourceItem) :
    activeItems isDefined (items.map relining.sourceItem) =
      (activeItems isDefined items).map relining.item := by
  -- A body keeps no lines, so that it is resolved as it is.
  have bodies : ∀ i : Item (List SourceStatement),
      (relining.item i).mapBody (resolveAll isDefined) =
        relining.item (i.mapBody (resolveAll isDefined)) := by
    intro i
    cases i <;> rfl
  rw [activeItems, ← sourceItems_eq, selectAll_sourceItems]
  simp [activeItems, bodies]

/-- A fold whose steps differ in the faults only does so as well. -/
theorem foldlM_map {σ α ε : Type} {step : σ → α → Except ε σ} {move : α → α} {fault : ε → ε}
    (same : ∀ state value, step state (move value) = (step state value).mapError fault)
    (state : σ) (values : List α) :
    (values.map move).foldlM step state = (values.foldlM step state).mapError fault := by
  -- Along the list; the state has no faults in it and is the same on both sides.
  induction values generalizing state with
  | nil => rfl
  | cons value rest ih =>
    rw [List.map_cons, List.foldlM_cons, List.foldlM_cons, same]
    cases step state value with
    | error => rfl
    | ok next => exact ih next

/-- A part on another line is declared the same, or refused with the same fault on its line. -/
theorem declare_item (draft : Draft) (item : Item (List Statement)) :
    draft.declare (relining.item item) =
      (draft.declare item).mapError relining.declarationFault := by
  -- Each rule looks at what was declared before, which has no lines, and its fault names this line.
  cases item with
  | declaration role declared line =>
    simp only [Relining.item, Draft.declare, Draft.declareName]
    split
    · rfl
    · split <;> rfl
  | layout named line =>
    have component : ∀ (draft : Draft) named, draft.declareComponent (relining.component named) =
        (draft.declareComponent named).mapError relining.declarationFault := by
      intro draft named
      simp only [Draft.declareComponent, Relining.component]
      cases VertexComponent.ofName? named.1 with
      | none => rfl
      | some =>
        by_cases declared : draft.program.isDeclared named.1 = true
        · simp only [declared, if_true]
          rfl
        · simp only [declared]
          rfl
    -- Each component of a layout is refused on a line of its own.
    simp only [Relining.item, Draft.declare, Draft.declareLayout, foldlM_map component]
    split
    · rfl
    · cases named.foldlM Draft.declareComponent draft <;> rfl
  -- A stage is refused on the line of its keyword.
  | stage which body line =>
    simp only [Relining.item, Draft.declare, Draft.declareStage]
    split <;> rfl

/-- Words on other lines are the same program, or have the same error on its line. -/
theorem ofTokens_tokens (name : String) (defines : Defines) :
    Program.ofTokens room name defines (relining.tokens tokens) =
      (Program.ofTokens room name defines tokens).mapError relining.error := by
  rw [ofTokens_eq, ofTokens_eq, sourceItems_follows room tokens]
  simp only [outcome, activeItems_map, Draft.declareAll, foldlM_map relining.declare_item]
  -- Either what is declared is at fault, or the reading is, or neither.
  generalize List.foldlM Draft.declare ⟨.empty name defines, false⟩
    (activeItems defines.isDefined (Source.sourceItems room tokens).completed) = declared
  cases declared with
  | error => rfl
  | ok => cases (Source.sourceItems room tokens).rest <;> rfl

/-- One line for all words. -/
def single : Relining :=
  ⟨fun _ => 1, rfl⟩

/-- Lines up to a last one, by which those behind it are replaced. -/
def upTo (last : Nat) (some : 1 ≤ last) : Relining :=
  ⟨fun line => max 1 (min line last), by omega⟩

end Grammar.Relining

namespace Program

open Grammar

variable {source other : String} {tokens : List Token}

/--
Layout has no part in what a source is.

A source is cut into the same words with any blanks and comments between them.
Under every define set it is the same program, or it has the same error up to the line.
-/
theorem parse_respaced (cut : tokenize source = .ok tokens)
    (respaces : Cursor.Respaces other (tokens.map Token.lexeme)) :
    (∃ others, tokenize other = .ok others ∧
      others.map Token.lexeme = tokens.map Token.lexeme) ∧
    ∀ name defines, (parse name defines other).mapError Relining.single.error =
      (parse name defines source).mapError Relining.single.error := by
  obtain ⟨others, cutOther, same⟩ := Cursor.exists_tokenize_of_respaces cut respaces
  refine ⟨⟨others, cutOther, same⟩, fun name defines => ?_⟩
  -- On one line for all of them, the words are the same.
  have unlined : ∀ tokens, Relining.single.tokens tokens =
      (tokens.map Token.lexeme).map fun lexeme => ⟨lexeme, 1⟩ := by
    intro tokens
    rw [List.map_map]
    rfl
  rw [parse_eq_ofTokens cutOther, parse_eq_ofTokens cut, ← Relining.ofTokens_tokens,
    ← Relining.ofTokens_tokens, unlined, unlined, same]

/-- A stage is the same with comments and line feeds in it, and has the same words. -/
theorem parse_respaced_stage :
    let other := "vertex /* main */\x7b\n// empty\n\x7d"
    ∃ tokens, tokenize "vertex\x7b\x7d" = .ok tokens ∧
      Cursor.Respaces other (tokens.map Token.lexeme) ∧
      (∃ others, tokenize other = .ok others ∧
        others.map Token.lexeme = tokens.map Token.lexeme) ∧
      ∀ name defines, (parse name defines other).mapError Relining.single.error =
        (parse name defines "vertex\x7b\x7d").mapError Relining.single.error := by
  intro other
  have main : ¬ Cursor.Closes ([' ', 'm', 'a', 'i', 'n', ' '] ++ ['*']) := by
    simp [Cursor.closes_cons, Cursor.not_closes_nil]
  -- The gaps are put together from their blanks and comments.
  have comment : Cursor.IsGap ([' '] ++ ('/' :: '*' :: ([' ', 'm', 'a', 'i', 'n', ' '] ++
      ['*', '/']) ++ [])) "\x7b\n// empty\n\x7d".toList :=
    .part (.blank rfl) (.part (.blockComment main) .none)
  have empty : '\n' ∉ [' ', 'e', 'm', 'p', 't', 'y'] := by decide
  have lines : Cursor.IsGap (['\n'] ++ (['/', '/', ' ', 'e', 'm', 'p', 't', 'y'] ++
      (['\n'] ++ []))) ['\x7d'] :=
    .part (.blank rfl) (.part (.lineComment empty (by simp)) (.part (.blank rfl) .none))
  -- From the end of the source backwards, each word keeps apart from the gap behind it.
  have closing : Cursor.Spaced [.symbol .rightBrace, .endOfFile] ['\x7d'] :=
    .word .none (fun _ => rfl) (by simp) .ended
  have braces := @Cursor.Spaced.word (.symbol .leftBrace) _ _ _ lines (by simp) (by simp) closing
  have stage := @Cursor.Spaced.word (.identifier "vertex") _ _ _ comment (by simp) (by simp) braces
  have respaces : Cursor.Respaces other
      [.identifier "vertex", .symbol .leftBrace, .symbol .rightBrace, .endOfFile] :=
    ⟨[], _, by decide, .none, stage⟩
  exact ⟨_, rfl, respaces, parse_respaced rfl respaces⟩

/-- The calls from the start of a source give the words that it is cut into. -/
theorem answer_of_tokenize (cut : tokenize source = .ok tokens) (call : Nat)
    (within : call < tokens.length) : (Cursor.ofSource source).answer call = .ok tokens[call] := by
  obtain ⟨words, -, all, last⟩ := (Cursor.yields_tokenize source).answers
  -- The words come first, and then the end.
  rcases last with ⟨line, ended, read⟩ | ⟨fault, -, read⟩
  · obtain rfl := Except.ok.inj (cut.symm.trans read)
    -- Either the call gives one of the words before the end, or it is the last call.
    by_cases before : call < words.length
    · rw [List.getElem_append_left before]
      exact (all call before).1
    · obtain rfl : call = words.length := by
        simp only [List.length_append, List.length_singleton] at within
        omega
      simpa using ended
  · cases cut.symm.trans read

/-- The fault that keeps a source from being cut is given by a call from its start. -/
theorem exists_answer_of_fault {fault : LexError} (failed : tokenize source = .error fault) :
    ∃ calls, (Cursor.ofSource source).answer calls = .error fault := by
  -- The calls give words until the fault, which the last one gives.
  obtain ⟨words, -, -, last⟩ := (Cursor.yields_tokenize source).answers
  rcases last with ⟨line, -, read⟩ | ⟨fault', reached, read⟩
  · cases failed.symm.trans read
  · obtain rfl := Except.error.inj (failed.symm.trans read)
    exact ⟨_, reached⟩

/-- A fault in the characters of a source names one of its lines. -/
theorem lexical_line_bounds {fault : LexError} (failed : tokenize source = .error fault) :
    1 ≤ fault.line ∧ fault.line ≤ Cursor.lineAt source.toList := by
  -- The call is made at some place of the source, and names a line that the source has.
  obtain ⟨calls, reached⟩ := exists_answer_of_fault failed
  obtain ⟨before, behind⟩ := Cursor.IsBehind.afterCalls source calls
  have bounds := behind.line_bounds
  rw [show ((Cursor.ofSource source).afterCalls calls).next.result = .error fault from reached]
    at bounds
  exact ⟨Nat.le_trans (behind.line ▸ Nat.le_add_right 1 _) bounds.1, bounds.2.2⟩

/-- Words on lines up to a last one have errors on such lines only. -/
theorem ofTokens_line_bounds {room last : Nat} {name : String} {defines : Defines}
    {error : ParseError} (some : 1 ≤ last)
    (bounds : ∀ token ∈ tokens, 1 ≤ token.line ∧ token.line ≤ last)
    (failed : ofTokens room name defines tokens = .error error) :
    1 ≤ error.line ∧ error.line ≤ last := by
  -- The words are the same when lines are kept within the bounds, and so are their errors.
  have kept : (Relining.upTo last some).tokens tokens = tokens := by
    refine (List.map_congr_left fun token member => ?_).trans (List.map_id _)
    obtain ⟨least, most⟩ := bounds token member
    have same : max 1 (min token.line last) = token.line := by omega
    exact congrArg (Token.mk token.lexeme) same
  have moved := @Relining.ofTokens_tokens (Relining.upTo last some) room tokens name defines
  -- Read on the kept lines, the words fail with the kept error, which is then the same one.
  rw [kept, failed] at moved
  have same : error = (Relining.upTo last some).error error := Except.error.inj moved
  have line : error.line = max 1 (min error.line last) := by
    cases error <;> exact congrArg ParseError.line same
  omega

/--
Lines are right: what a call gives names the line of the place where it stands.

One more than the line feeds before it is the line of a word, of the end, and of a fault.
The lines of words never decrease, and every error names one of the lines of its source.
-/
theorem lines_right (source : String) :
    (∀ calls, ∃ before gap place, source.toList = before ++ gap ++ place ∧
      ((Cursor.ofSource source).afterCalls calls).rest = gap ++ place ∧
      Cursor.IsWholeGap gap place ∧
      Cursor.Meets (Cursor.lineAt (before ++ gap)) place
        ((Cursor.ofSource source).afterCalls calls).next ∧
      Cursor.lineOf ((Cursor.ofSource source).answer calls) = Cursor.lineAt (before ++ gap)) ∧
    (∀ tokens, tokenize source = .ok tokens →
      (∀ (call : Nat) (within : call < tokens.length),
        (Cursor.ofSource source).answer call = .ok tokens[call]) ∧
        tokens.Pairwise (·.line ≤ ·.line)) ∧
    (∀ fault, tokenize source = .error fault →
      ∃ calls, (Cursor.ofSource source).answer calls = .error fault) ∧
    ∀ name defines error, parse name defines source = .error error →
      1 ≤ error.line ∧ error.line ≤ Cursor.lineAt source.toList := by
  refine ⟨fun calls => ?_, fun tokens cut => ⟨answer_of_tokenize cut, ?_⟩,
    fun fault => exists_answer_of_fault, fun name defines error failed => ?_⟩
  · -- Wherever the calls have come, the cursor knows its line.
    obtain ⟨before, behind⟩ := Cursor.IsBehind.afterCalls source calls
    obtain ⟨gap, place, passed, same, isWhole, meets, -⟩ := behind.next
    refine ⟨before, gap, place, ?_, same, isWhole, meets, meets.lineOf_eq⟩
    rw [behind.rest, same, List.append_assoc]
  · exact ((cut ▸ Cursor.yields_tokenize source).sorted (.start source)).1
  · -- A fault of the parser names the line of a word, and these are within the source.
    cases cut : tokenize source with
    | error fault =>
      obtain rfl : error = .lexical fault := by
        rw [parse, cut] at failed
        exact (Except.error.inj failed).symm
      exact lexical_line_bounds cut
    | ok tokens =>
      rw [parse_eq_ofTokens cut] at failed
      have bounds := ((cut ▸ Cursor.yields_tokenize source).sorted (.start source)).2
      exact ofTokens_line_bounds (Nat.le_add_right 1 _) bounds failed

end Program

end Shading

import Shading.Proofs.Lexer.Progress
import Shading.Proofs.Walk.Items

/-! Sources are read to their end, and every call on the way puts back what it shares. -/

namespace Shading.Walk

open Source Grammar

variable {isDefined : String → Bool} {s : State}

/-- The outermost loop is over after at most as many rounds as there are words, with the draft or the
error that is told of the words. -/
theorem untilEnd_ends {reader : Walk (List Unit)} {parser : PartsParser SourceItem}
    (part : ∀ {s : State}, s.Ready maxNesting →
      ReadsParts (declarations isDefined) s reader (parser s.words))
    (takes : Takes parser) (limit : Nat) {limit' : Nat} (ready : s.Ready maxNesting)
    (enough : s.words.length < limit) (enough' : s.words.length ≤ limit') :
    ∃ result s', untilEnd reader limit s = some (result, s') ∧ s'.Ready maxNesting ∧
      s'.stream.tokens = s.stream.tokens ∧ s'.rounds ≤ s.rounds + s.words.length ∧
      (result.map fun _ => s'.draft) =
        ((declarations isDefined).foretell s.active s.draft
          (Source.untilEnd parser limit' s.words)).map fun told => told.2.1 := by
  -- Every round takes a word, so both limits go down with the words that are left.
  induction limit generalizing s limit' with
  | zero => omega
  | succ limit ih =>
    obtain ⟨below, rfl⟩ := ready.sound.limit_succ enough'
    unfold Source.untilEnd
    have asks : untilEnd reader (limit + 1) s =
        if (headToken s.words).isEnd then (pure () : Walk Unit) s
        else (reader >>= fun _ => untilEnd reader limit) { s with rounds := s.rounds + 1 } := by
      show (if !s.stream.current.isEnd then _ else _ : Walk Unit) s = _
      rw [s.current_eq]
      cases (headToken s.words).isEnd <;> rfl
    rw [asks]
    by_cases atEnd : (headToken s.words).isEnd = true
    · -- At the end, nothing more is asked for.
      rw [if_pos atEnd, if_pos atEnd]
      refine ⟨.ok (), s, rfl, ready, rfl, by omega, ?_⟩
      simp [Meaning.foretell, (declarations isDefined).nil, Except.map]
    · rw [if_neg atEnd, if_neg atEnd, Meaning.foretell_andThen]
      -- The round is counted before the part is read.
      let counted : State := { s with rounds := s.rounds + 1 }
      have ready₁ : counted.Ready maxNesting := ⟨ready.sound.of_same rfl rfl rfl, ready.fits⟩
      have gives : Gives counted (reader counted)
          ((declarations isDefined).foretell s.active s.draft (parser s.words)) := part ready₁
      generalize answers : reader counted = answer at gives
      generalize told : (declarations isDefined).foretell s.active s.draft (parser s.words) =
        foretold at gives ⊢
      cases gives with
      -- A fault ends the loop in the round that was just counted.
      | @error error s₁ keeps =>
        have counts : s₁.rounds = s.rounds + 1 := keeps.rounds
        have some := ready.sound.words_pos
        exact ⟨.error error, s₁, bind_of_error answers, keeps.ready ready₁, keeps.tokens, by omega, rfl⟩
      | @ok elements s₁ draft rest keeps active declared left =>
        subst declared left
        have fewer := takes ((declarations isDefined).rest_eq_ok told)
        have counts : s₁.rounds = s.rounds + 1 := keeps.rounds
        obtain ⟨result, s₂, ends, ready₂, tokens, rounds, drafts⟩ :=
          ih (keeps.ready ready₁) (by omega) (show s₁.words.length ≤ below by omega)
        refine ⟨result, s₂, ?_, ready₂, tokens.trans keeps.tokens, by omega, ?_⟩
        · rw [bind_of_ok answers, ends]
        · rw [drafts, show s₁.active = s.active from active]
          show _ = ((declarations isDefined).foretell s.active s₁.draft
            (Source.untilEnd parser below s₁.words) >>= _).map _
          cases (declarations isDefined).foretell s.active s₁.draft
            (Source.untilEnd parser below s₁.words) <;> rfl

/-- What is told of a whole source is the program that its words are. -/
theorem foretell_program (name : String) (defines : Defines) (outcome : Outcome SourceItem) :
    (((declarations defines.isDefined).foretell true ⟨.empty name defines, false⟩ outcome).map
        fun told => told.2.1.program) = Program.ofOutcome name defines outcome := by
  obtain ⟨completed, rest⟩ := outcome
  -- An error of a declaration is met before any fault behind it, in both.
  simp only [Meaning.foretell, declarations, if_true, Program.ofOutcome]
  cases Draft.declareAll ⟨.empty name defines, false⟩ (activeItems defines.isDefined completed) with
  | error error => rfl
  | ok draft => cases rest <;> rfl

/-- What a reading leaves when it is over: all calls were orderly, no level is still entered and none
was too deep, and the outermost loop took no more rounds than there are words. -/
structure State.Framed (tokens : List Token) (s : State) : Prop where
  orderly : ∀ visit ∈ s.visits, visit.Orderly tokens
  depth : s.depth = 0
  deepest_le : s.deepest ≤ maxNesting
  rounds_le : s.rounds ≤ tokens.length

/-- The reading of words that end once is over at some time, with the program or the error that the
words are, and leaves everything in order. -/
theorem program_framed (name : String) (defines : Defines) {tokens : List Token}
    (ends : EndsOnce tokens) :
    ∃ s, program name defines ⟨tokens.toArray, 0⟩ =
      some (Program.ofTokens maxNesting name defines tokens, s) ∧ s.Framed tokens := by
  let start : State := { stream := ⟨tokens.toArray, 0⟩, draft := ⟨.empty name defines, false⟩ }
  have words : start.words = tokens := by simp [State.words, start]
  -- At the start no call is over yet and all levels are left.
  have ready : start.Ready maxNesting :=
    ⟨⟨words ▸ ends, Nat.zero_le _, by simp [start]⟩, Nat.zero_add _⟩
  have sound := itemParsers_sound maxNesting
  have takes : Takes (Source.item maxNesting (itemParsers maxNesting)) := by
    intro tokens rest read
    obtain ⟨_, _, spans⟩ := item_sound sound read
    exact spans.length_le
  -- As many rounds are allowed as there are words, and one more.
  obtain ⟨result, s, ended, ready', same, rounds, drafts⟩ := untilEnd_ends
    (item_reads (items_read defines.isDefined maxNesting) sound) takes
    (tokens.toArray.size + 1) ready (by simp [words]) (Nat.le_of_eq (congrArg List.length words))
  rw [words] at rounds drafts
  -- The draft at the end is the one that is told of the words, and so is the program in it.
  have outcome : (result.map fun _ => s.draft.program) =
      Program.ofTokens maxNesting name defines tokens := by
    rw [Program.ofTokens, sourceItems, ← foretell_program]
    generalize (declarations defines.isDefined).foretell true _ _ = foretold at drafts ⊢
    cases result <;> cases foretold <;> simp_all [Except.map]
  refine ⟨s, ?_, ⟨?_, ?_, ready'.sound.deepest_le, by simpa [start] using rounds⟩⟩
  · show (untilEnd _ (tokens.toArray.size + 1) start).map _ = _
    rw [ended, ← outcome]
    rfl
  · have orderly := ready'.sound.orderly
    rw [same] at orderly
    exact orderly
  · have fits := ready'.fits
    omega

/-- Every source that is cut into words is read to its end, to the program or the error that the
source is, and every call on the way puts back what it shares with its caller. -/
theorem parse_framed (name : String) (defines : Defines) (source : String) :
    match parse name defines source with
    | .error error => Program.parse name defines source = .error (.lexical error)
    | .ok run => ∃ tokens s, tokenize source = .ok tokens ∧ EndsOnce tokens ∧
        run = some (Program.parse name defines source, s) ∧ s.Framed tokens := by
  unfold parse Program.parse TokenStream.ofSource
  -- A source that cannot be cut into words is not read at all.
  cases cut : tokenize source with
  | error error => rfl
  | ok tokens =>
    have ends := tokenize_endsOnce cut
    obtain ⟨s, ended, framed⟩ := program_framed name defines ends
    exact ⟨tokens, s, rfl, ends, ended, framed⟩

-- Declarations do not count within the region that is not taken, and count again behind it.
example : (match parse "p" .empty "ifdef a \x7b vertex \x7b \x7d \x7d" with
    | .ok (some (_, s)) => s.visits
    | _ => []) =
    [⟨.item, ⟨0, true, 0⟩, ⟨7, true, 0⟩, true⟩,
      ⟨.conditional, ⟨0, true, 0⟩, ⟨7, true, 0⟩, true⟩,
      ⟨.region, ⟨2, true, 0⟩, ⟨7, true, 0⟩, true⟩,
      ⟨.item, ⟨3, false, 1⟩, ⟨6, false, 1⟩, true⟩,
      ⟨.block, ⟨4, false, 1⟩, ⟨6, false, 1⟩, true⟩] := by decide +kernel

end Shading.Walk

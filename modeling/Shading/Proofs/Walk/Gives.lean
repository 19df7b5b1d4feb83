import Shading.Proofs.Grammar.Unit
import Shading.Proofs.Walk.Readers

/-! What a reader gives: an answer that is foretold, and a state in which nothing is out of order. -/

namespace Shading.Walk

open Source Grammar

variable {α β γ : Type} {s s' : State} {room : Nat}

/--
A call that is over has put back what it shares with its caller.

The level is put back in any case. Only a call that succeeds puts back the switch as well, and leaves
the cursor further on but not behind the end of the source.
-/
structure Visit.Orderly (tokens : List Token) (visit : Visit) : Prop where
  entry_le : visit.entry.depth ≤ maxNesting
  depth : visit.exit.depth = visit.entry.depth
  active : visit.succeeded = true → visit.exit.active = visit.entry.active
  forward : visit.succeeded = true → visit.entry.position < visit.exit.position
  within : visit.succeeded = true → EndsOnce (tokens.drop visit.exit.position)

/-- The cursor is on a word of the source, no level was too deep and all calls were orderly. -/
structure State.Sound (s : State) : Prop where
  ends : EndsOnce s.words
  deepest_le : s.deepest ≤ maxNesting
  orderly : ∀ visit ∈ s.visits, visit.Orderly s.stream.tokens.toList

/-- A state is in order and has a number of levels left. -/
structure State.Ready (room : Nat) (s : State) : Prop where
  sound : s.Sound
  fits : s.depth + room = maxNesting

/-- A state in order follows on the same words and on the same level. -/
structure Keeps (s s' : State) : Prop where
  sound : s'.Sound
  tokens : s'.stream.tokens = s.stream.tokens
  depth : s'.depth = s.depth
  rounds : s'.rounds = s.rounds

/-- The answer is the one foretold, an error or a value with the draft and the words that are left. -/
inductive Gives (s : State) :
    Option (Except ParseError α × State) → Except ParseError (α × Draft × List Token) → Prop
  | ok {value : α} {s' : State} {draft : Draft} {rest : List Token} (keeps : Keeps s s')
      (active : s'.active = s.active) (declared : s'.draft = draft) (left : s'.words = rest) :
    Gives s (some (.ok value, s')) (.ok (value, draft, rest))
  -- Whatever was switched off or declared before an error is not looked at any more.
  | error {error : ParseError} {s' : State} (keeps : Keeps s s') :
    Gives s (some (.error error, s')) (.error error)

/-- Whether a state is in order does not depend on its level, its switch, its draft or its rounds. -/
theorem State.Sound.of_same (sound : s.Sound) (stream : s'.stream = s.stream)
    (deepest : s'.deepest = s.deepest) (visits : s'.visits = s.visits) : s'.Sound := by
  -- Only the words, the deepest level and the records are asked for.
  refine ⟨?_, ?_, ?_⟩
  · rw [State.words, stream]
    exact sound.ends
  · rw [deepest]
    exact sound.deepest_le
  · rw [visits, stream]
    exact sound.orderly

/-- A state in order follows itself. -/
theorem Keeps.refl (sound : s.Sound) : Keeps s s :=
  -- Nothing has changed yet.
  ⟨sound, rfl, rfl, rfl⟩

/-- What follows a state that follows is in order with the first one. -/
theorem Keeps.trans {s'' : State} (first : Keeps s s') (second : Keeps s' s'') : Keeps s s'' :=
  -- Every component is unchanged in both steps.
  ⟨second.sound, second.tokens.trans first.tokens, second.depth.trans first.depth,
    second.rounds.trans first.rounds⟩

/-- The same number of levels are left in a state that follows. -/
theorem Keeps.ready (keeps : Keeps s s') (ready : s.Ready room) : s'.Ready room :=
  -- The level is unchanged, and so is the number of those left.
  ⟨keeps.sound, by rw [keeps.depth, ready.fits]⟩

/-! ## The cursor -/

/-- The word at the cursor is the first of those that are left. -/
theorem State.current_eq (s : State) : s.stream.current = headToken s.words := by
  -- The words are those of the source from the position on.
  simp [TokenStream.current, TokenStream.tokenAt, headToken, words, List.headD_eq_head?_getD,
    List.head?_drop]

/-- As many words are left as there are from the cursor on. -/
theorem State.length_words (s : State) :
    s.words.length = s.stream.tokens.size - s.stream.position := by
  -- The words are those of the source from the position on.
  simp [words]

/-- Some word is left, since the one that ends the source is never passed. -/
theorem State.Sound.words_pos (sound : s.Sound) : 0 < s.words.length := by
  -- The words end once, so that there is one for the end.
  obtain ⟨first, rest, split⟩ := sound.ends.exists_cons
  simp [split]

/-- A limit that all words keep to allows one more step. -/
theorem State.Sound.limit_succ {limit : Nat} (sound : s.Sound) (enough : s.words.length ≤ limit) :
    ∃ below, limit = below + 1 :=
  -- The limit is not zero, since some word is left.
  ⟨limit - 1, by have := sound.words_pos; omega⟩

/-- Before the end of the source, the next word is not behind the last one. -/
theorem State.Sound.next_le (sound : s.Sound) (more : (headToken s.words).isEnd = false) :
    s.stream.position + 1 ≤ s.stream.last := by
  -- The one word that may stand alone is the one that ends the source.
  obtain ⟨words, line, split, -⟩ := sound.ends
  rcases words with _ | ⟨first, words⟩
  · simp [split, Token.isEnd] at more
  · have lengths := congrArg List.length split
    simp only [State.length_words, List.length_append, List.length_cons, List.length_nil] at lengths
    simp only [TokenStream.last]
    omega

/-- The state with the cursor on the next word. -/
def State.next (s : State) : State :=
  { s with stream := s.stream.advance }

/-- Before the end of the source, the cursor passes one word. -/
theorem State.Sound.words_next (sound : s.Sound) (more : (headToken s.words).isEnd = false) :
    s.next.words = s.words.tail := by
  -- The next position is still one of a word.
  simp [State.next, State.words, TokenStream.advance, TokenStream.seek,
    Nat.min_eq_left (sound.next_le more)]

/-- Passing a word keeps the state in order. -/
theorem State.Sound.keeps_next (sound : s.Sound) (more : (headToken s.words).isEnd = false) :
    Keeps s s.next := by
  refine ⟨⟨?_, sound.deepest_le, sound.orderly⟩, rfl, rfl, rfl⟩
  -- What is left still ends where the source does, for that word was not the one passed.
  rw [sound.words_next more]
  obtain ⟨first, rest, split⟩ := sound.ends.exists_cons
  rw [split] at more ⊢
  exact EndsOnce.remains (split ▸ sound.ends) (.one more)

/-! ## Readers one after the other -/

/-- What is given after a step that keeps the state is given before it. -/
theorem Gives.of_keeps {answer : Option (Except ParseError α × State)}
    {foretold : Except ParseError (α × Draft × List Token)} (keeps : Keeps s s')
    (active : s'.active = s.active) (gives : Gives s' answer foretold) :
    Gives s answer foretold := by
  -- Both kinds of answers carry on what was kept.
  cases gives with
  | ok later same declared left =>
    exact .ok (keeps.trans later) (same.trans active) declared left
  | error later => exact .error (keeps.trans later)

/-- What is given by two readers is foretold from what the first one gives. -/
theorem Gives.bind {first : Walk α} {next : α → Walk β}
    {foretold : Except ParseError (α × Draft × List Token)}
    {follow : α × Draft × List Token → Except ParseError (β × Draft × List Token)}
    (gives : Gives s (first s) foretold)
    (later : ∀ value s', Keeps s s' → s'.active = s.active →
      foretold = .ok (value, s'.draft, s'.words) →
      Gives s' (next value s') (follow (value, s'.draft, s'.words))) :
    Gives s ((first >>= next) s) (foretold >>= follow) := by
  -- The second reader starts in the state that the first one leaves, unless that one fails.
  generalize answers : first s = answer at gives
  cases gives with
  | ok keeps active declared left =>
    subst declared left
    rw [bind_of_ok answers]
    exact .of_keeps keeps active (later _ _ keeps active rfl)
  | error keeps =>
    rw [bind_of_error answers]
    exact .error keeps

/-- What is asked of the word at the cursor is asked of the words from the cursor on. -/
theorem Gives.look {ask : List Token → β} {next : β → Walk α}
    {foretold : Except ParseError (α × Draft × List Token)}
    (first : ∀ tokens, ask [headToken tokens] = ask tokens)
    (gives : Gives s (next (ask s.words) s) foretold) :
    Gives s ((looking ask >>= next) s) foretold := by
  -- Only the first word is asked for, and it is the one at the cursor.
  rw [← first, ← s.current_eq] at gives
  exact gives

/-- A loop may run for one round more than there are words left. -/
theorem Gives.looping {loop : Nat → Walk α}
    {foretold : Except ParseError (α × Draft × List Token)}
    (gives : ∀ limit, s.words.length < limit → Gives s (loop limit s) foretold) :
    Gives s (looping loop s) foretold := by
  -- The limit of the loop is the number of words left, and one more.
  refine gives _ ?_
  rw [State.length_words]
  omega

/-! ## What is put back -/

/-- A record of an orderly call keeps the state in order. -/
theorem Keeps.record {visit : Visit} (keeps : Keeps s s')
    (orderly : visit.Orderly s.stream.tokens.toList) :
    Keeps s { s' with visits := visit :: s'.visits } := by
  refine ⟨⟨keeps.sound.ends, keeps.sound.deepest_le, ?_⟩, keeps.tokens, keeps.depth, keeps.rounds⟩
  intro other member
  rcases List.mem_cons.mp member with rfl | earlier
  · -- Both states are over the same words.
    rw [← keeps.tokens] at orderly
    exact orderly
  · exact keeps.sound.orderly other earlier

/-- A record is kept of a call that takes a word. -/
theorem Gives.visiting {call : Call} {inner : Walk α}
    {foretold : Except ParseError (α × Draft × List Token)} (ready : s.Ready room)
    (gives : Gives s (inner s) foretold)
    (shorter : ∀ {value draft rest}, foretold = .ok (value, draft, rest) →
      rest.length < s.words.length) :
    Gives s (visiting call inner s) foretold := by
  have fits := ready.fits
  have entry : s.frame.depth ≤ maxNesting := by
    show s.depth ≤ maxNesting
    omega
  simp only [Walk.visiting]
  generalize inner s = answer at gives ⊢
  cases gives with
  | @ok value s' _ _ keeps active declared left =>
    refine .ok (keeps.record ⟨entry, keeps.depth, fun _ => active, fun _ => ?_, fun _ => ?_⟩) active
      declared left
    · -- Fewer words are left, so the cursor is further on.
      have fewer := shorter rfl
      rw [← left, State.length_words, State.length_words, keeps.tokens] at fewer
      show s.stream.position < s'.stream.position
      omega
    · rw [← keeps.tokens]
      exact keeps.sound.ends
  -- A call that fails has only its level to put back.
  | error keeps => exact .error (keeps.record ⟨entry, keeps.depth, nofun, nofun, nofun⟩)

/-- A level is entered if one is left, and it is left again in any case. -/
theorem Gives.nested {inner : Walk α} {foretold : Except ParseError (α × Draft × List Token)}
    (ready : s.Ready room)
    (tooDeep : room = 0 → foretold = .error (.grammar ⟨(headToken s.words).line, .tooDeep⟩))
    (inside : ∀ fewer, room = fewer + 1 → s.deeper.Ready fewer →
      Gives s.deeper (inner s.deeper) foretold) :
    Gives s (nested inner s) foretold := by
  have fits := ready.fits
  unfold Walk.nested
  by_cases full : maxNesting ≤ s.depth
  · -- Nothing is entered, so there is nothing to put back.
    rw [if_pos full, tooDeep (by omega), ← s.current_eq]
    exact .error (.refl ready.sound)
  · rw [if_neg full]
    obtain ⟨fewer, rfl⟩ : ∃ fewer, room = fewer + 1 := ⟨room - 1, by omega⟩
    have below : s.deeper.Ready fewer := by
      refine ⟨⟨ready.sound.ends, ?_, ready.sound.orderly⟩, ?_⟩
      · -- The deepest level so far stays within the limit, as this one was not full.
        have before := ready.sound.deepest_le
        show max s.deepest (s.depth + 1) ≤ maxNesting
        omega
      · show s.depth + 1 + fewer = maxNesting
        omega
    have gives := inside fewer rfl below
    generalize inner s.deeper = answer at gives ⊢
    -- The level is counted down by as much as it was counted up.
    cases gives with
    | ok keeps active declared left =>
      exact .ok ⟨keeps.sound.of_same rfl rfl rfl, keeps.tokens, by simp [keeps.depth, State.deeper],
        keeps.rounds⟩ active declared left
    | error keeps =>
      exact .error ⟨keeps.sound.of_same rfl rfl rfl, keeps.tokens,
        by simp [keeps.depth, State.deeper], keeps.rounds⟩

/-- A region is read with the switch as it is there, and the switch is put back. -/
theorem Gives.gated {taken : Bool} {inner : Walk α}
    {foretold : Except ParseError (α × Draft × List Token)}
    (gives : Gives { s with active := s.active && taken }
      (inner { s with active := s.active && taken }) foretold) :
    Gives s (gated taken inner s) foretold := by
  unfold Walk.gated
  -- Whether a state is in order does not depend on the switch.
  generalize inner { s with active := s.active && taken } = answer at gives ⊢
  cases gives with
  | ok keeps _ declared left =>
    exact .ok ⟨keeps.sound.of_same rfl rfl rfl, keeps.tokens, keeps.depth, keeps.rounds⟩ rfl declared
      left
  | error keeps => exact .error ⟨keeps.sound, keeps.tokens, keeps.depth, keeps.rounds⟩

/-- The same holds where the switch is put back in any case. -/
theorem Gives.gatedAlways {taken : Bool} {inner : Walk α}
    {foretold : Except ParseError (α × Draft × List Token)}
    (gives : Gives { s with active := s.active && taken }
      (inner { s with active := s.active && taken }) foretold) :
    Gives s (gatedAlways taken inner s) foretold := by
  unfold Walk.gatedAlways
  generalize inner { s with active := s.active && taken } = answer at gives ⊢
  -- The switch is put back whether the reader was successful or not.
  cases gives with
  | ok keeps _ declared left =>
    exact .ok ⟨keeps.sound.of_same rfl rfl rfl, keeps.tokens, keeps.depth, keeps.rounds⟩ rfl declared
      left
  | error keeps =>
    exact .error ⟨keeps.sound.of_same rfl rfl rfl, keeps.tokens, keeps.depth, keeps.rounds⟩

end Shading.Walk

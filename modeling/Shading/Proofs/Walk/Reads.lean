import Shading.Proofs.Walk.Gives

/-! Readers that declare nothing, which do what the readers of plain lists of words do. -/

namespace Shading.Walk

open Source Grammar

variable {α β γ δ : Type} {s : State} {room : Nat}

/-- What a reading of words tells of one with a state, the values of which have another form. -/
def foretell (form : α → β) (draft : Draft) :
    Except GrammarError (α × List Token) → Except ParseError (β × Draft × List Token)
  | .ok (value, rest) => .ok (form value, draft, rest)
  | .error error => .error (.grammar error)

/-- A reader does what a reading of the words from the cursor on tells, and declares nothing. -/
def Reads (form : α → β) (s : State) (reader : Walk β)
    (reading : Except GrammarError (α × List Token)) : Prop :=
  Gives s (reader s) (foretell form s.draft reading)

/-- A state in order follows by reading that declares nothing. -/
structure Moves (s s' : State) : Prop extends Keeps s s' where
  active : s'.active = s.active
  draft : s'.draft = s.draft

/--
What follows a reading that declares nothing is told by what is foretold of both.

A fault in the reading ends both, and otherwise the second one goes on behind it.
-/
theorem Gives.after {form : α → β} {first : Walk β} {next : β → Walk γ}
    {reading : Except GrammarError (α × List Token)}
    {foretold : Except ParseError (γ × Draft × List Token)} (reads : Reads form s first reading)
    (failed : ∀ error, reading = .error error → foretold = .error (.grammar error))
    (later : ∀ value s', Moves s s' → reading = .ok (value, s'.words) →
      Gives s' (next (form value) s') foretold) :
    Gives s ((first >>= next) s) foretold := by
  -- The cases are those of the reading, with which the answer has to agree.
  unfold Reads at reads
  generalize answers : first s = answer at reads
  rcases reading with error | ⟨value, rest⟩
  · -- A fault of the first reading is that of the whole.
    rw [failed error rfl]
    cases reads with
    | error keeps =>
      rw [bind_of_error answers]
      exact .error keeps
  · cases reads with
    | ok keeps active declared left =>
      subst left
      rw [bind_of_ok answers]
      exact .of_keeps keeps active (later value _ ⟨keeps, active, declared⟩ rfl)

/-- Readers one after the other read what the readings of the words do one after the other. -/
theorem Reads.bind {form : α → β} {form' : γ → δ} {first : Walk β} {next : β → Walk δ}
    {reading : Except GrammarError (α × List Token)}
    {follow : α × List Token → Except GrammarError (γ × List Token)} (ready : s.Ready room)
    (reads : Reads form s first reading)
    (later : ∀ value {s' : State}, s'.Ready room → reading = .ok (value, s'.words) →
      Reads form' s' (next (form value)) (follow (value, s'.words))) :
    Reads form' s (first >>= next) (reading >>= follow) := by
  refine Gives.after reads ?_ fun value s' moves told => ?_
  · rintro error rfl
    rfl
  · -- The draft that the second reader finds is the one that the first one found.
    subst told
    have reads := later value (moves.ready ready) rfl
    rw [Reads, moves.draft] at reads
    exact reads

/-- Returning a value reads no words. -/
theorem Reads.done {form : α → β} (ready : s.Ready room) (value : α) :
    Reads form s (pure (form value)) (.ok (value, s.words)) :=
  -- Neither the words nor the draft is touched.
  .ok (.refl ready.sound) rfl rfl rfl

/-- A reader that has a choice reads what a reading with the same choice does. -/
theorem Reads.branch {form : α → β} {condition : Prop} [Decidable condition] {yes no : Walk β}
    {yes' no' : Except GrammarError (α × List Token)} (holds : condition → Reads form s yes yes')
    (fails : ¬condition → Reads form s no no') :
    Reads form s (if condition then yes else no) (if condition then yes' else no') := by
  -- Both sides make the same choice.
  by_cases met : condition
  · rw [if_pos met, if_pos met]
    exact holds met
  · rw [if_neg met, if_neg met]
    exact fails met

/-- What is asked of the word at the cursor is asked of the words from the cursor on. -/
theorem Reads.look {form : α → β} {ask : List Token → γ} {next : γ → Walk β}
    {reading : Except GrammarError (α × List Token)}
    (first : ∀ tokens, ask [headToken tokens] = ask tokens)
    (reads : Reads form s (next (ask s.words)) reading) :
    Reads form s (looking ask >>= next) reading :=
  -- What is read is given, so that the rule for giving applies.
  Gives.look first reads

/-- What is asked of the word behind the one at the cursor is asked of the words from there on. -/
theorem Reads.peek {form : α → β} {ask : List Token → γ} {next : γ → Walk β}
    {reading : Except GrammarError (α × List Token)} (ready : s.Ready room)
    (more : (headToken s.words).isEnd = false)
    (first : ∀ tokens, ask [headToken tokens] = ask tokens)
    (reads : Reads form s (next (ask s.words.tail)) reading) :
    Reads form s (peeking ask >>= next) reading := by
  -- The word behind is the one that the cursor would be on next.
  have ahead : s.stream.peek 1 = headToken s.words.tail := by
    rw [← ready.sound.words_next more, ← State.current_eq]
    rfl
  rw [← first, ← ahead] at reads
  exact reads

/-- The level that is asked for is that of the state. -/
theorem Reads.level {form : α → β} {next : Nat → Walk β}
    {reading : Except GrammarError (α × List Token)} (reads : Reads form s (next s.depth) reading) :
    Reads form s (depth >>= next) reading :=
  -- Asking for the level changes nothing.
  reads

/-- Faulting the word at the cursor is faulting the first word. -/
theorem Reads.fault {form : α → β} {cause : Token → GrammarError.Cause} (ready : s.Ready room) :
    Reads form s (fault cause)
      (.error ⟨(headToken s.words).line, cause (headToken s.words)⟩) := by
  -- The word at the cursor is the first of those left.
  rw [← s.current_eq]
  exact .error (.refl ready.sound)

/-- A record is kept of a reading that takes a word. -/
theorem Reads.visiting {form : α → β} {call : Call} {inner : Walk β}
    {reading : Except GrammarError (α × List Token)} (ready : s.Ready room)
    (reads : Reads form s inner reading)
    (shorter : ∀ {value rest}, reading = .ok (value, rest) → rest.length < s.words.length) :
    Reads form s (visiting call inner) reading := by
  -- A record is only made of a reading that succeeds, and this one takes a word.
  refine Gives.visiting ready reads ?_
  intro value draft rest told
  rcases reading with error | ⟨value, rest⟩
  · cases told
  · cases told
    exact shorter rfl

/-- A reading one level deeper is that of the level, or there is no level left for it. -/
theorem Reads.nested {form : α → β} {inner : Walk β}
    {reading : Except GrammarError (α × List Token)} (ready : s.Ready room)
    (full : room = 0 → reading = tooDeep s.words)
    (inside : ∀ fewer s', room = fewer + 1 → s'.Ready fewer → s'.words = s.words →
      Reads form s' inner reading) :
    Reads form s (nested inner) reading := by
  -- Without a level the reading is refused, and else the level is taken off and given back.
  refine Gives.nested ready (fun none => ?_) fun fewer less below =>
    inside fewer s.deeper less below rfl
  rw [full none]
  rfl

/-- A loop may run for one round more than there are words left. -/
theorem Reads.looping {form : α → β} {loop : Nat → Walk β}
    {reading : Except GrammarError (α × List Token)}
    (reads : ∀ limit, s.words.length < limit → Reads form s (loop limit) reading) :
    Reads form s (looping loop) reading :=
  -- What is read is given, so that the rule for giving applies.
  Gives.looping reads

/-! ## Passing words -/

/-- A reader passes words as a reading of the words from the cursor on does. -/
def Passes (s : State) (reader : Walk Unit) (passing : Except GrammarError (List Token)) : Prop :=
  Reads (id : Unit → Unit) s reader (passing.map fun rest => ((), rest))

/-- What follows passed words is told by what is foretold of both. -/
theorem Gives.afterPass {first : Walk Unit} {next : Unit → Walk β}
    {passing : Except GrammarError (List Token)}
    {foretold : Except ParseError (β × Draft × List Token)} (passes : Passes s first passing)
    (failed : ∀ error, passing = .error error → foretold = .error (.grammar error))
    (later : ∀ s', Moves s s' → passing = .ok s'.words → Gives s' (next () s') foretold) :
    Gives s ((first >>= next) s) foretold := by
  -- What is passed leaves no value, and either fails or leaves words.
  refine .after passes ?_ ?_
  all_goals cases passing with
  | error error => simp_all [Except.map]
  | ok rest => simp_all [Except.map]

/-- What follows passed words is read behind them. -/
theorem Passes.bind {form : α → β} {first : Walk Unit} {next : Unit → Walk β}
    {passing : Except GrammarError (List Token)}
    {follow : List Token → Except GrammarError (α × List Token)} (ready : s.Ready room)
    (passes : Passes s first passing)
    (later : ∀ {s' : State}, s'.Ready room → passing = .ok s'.words →
      Reads form s' (next ()) (follow s'.words)) :
    Reads form s (first >>= next) (passing >>= follow) := by
  -- A fault in passing is one of the whole reading.
  refine Gives.afterPass passes ?_ fun s' moves told => ?_
  · rintro error rfl
    rfl
  · subst told
    have reads := later (moves.ready ready) rfl
    rw [Reads, moves.draft] at reads
    exact reads

/-- Moving on passes the first word, unless it is the one that ends the source. -/
theorem advance_passes (ready : s.Ready room) (more : (headToken s.words).isEnd = false) :
    Passes s advance (.ok s.words.tail) :=
  -- The end is not passed, so that the cursor moves by one.
  .ok (ready.sound.keeps_next more) rfl rfl (ready.sound.words_next more)

/-- What follows the first word is read behind it. -/
theorem Reads.advance {form : α → β} {next : Unit → Walk β}
    {reading : Except GrammarError (α × List Token)} (ready : s.Ready room)
    (more : (headToken s.words).isEnd = false)
    (later : ∀ {s' : State}, s'.Ready room → s'.words = s.words.tail →
      Reads form s' (next ()) reading) :
    Reads form s (advance >>= next) reading := by
  -- Moving on is passing the first word, which cannot fail here.
  show Reads form s (Walk.advance >>= next) (.ok s.words.tail >>= fun _ => reading)
  exact Passes.bind ready (advance_passes ready more) fun ready' passed =>
    later ready' (Except.ok.inj passed).symm

/-- Words that start with a symbol start with no end of a source. -/
theorem more_of_startsWith {symbol : Symbol} {tokens : List Token}
    (starts : startsWith symbol tokens = true) : (headToken tokens).isEnd = false := by
  -- The symbol is a word of its own.
  obtain ⟨line, rest, rfl⟩ := startsWith_iff.mp starts
  rfl

/-- Words that start with a keyword start with no end of a source. -/
theorem more_of_headKeyword {keyword : Keyword} {tokens : List Token}
    (starts : headKeyword? tokens = some keyword) : (headToken tokens).isEnd = false := by
  -- The keyword is a word of its own.
  obtain ⟨line, rest, rfl⟩ := headKeyword?_eq_some.mp starts
  rfl

/-- A symbol is passed when the cursor is on it. -/
theorem pass_passes (ready : s.Ready room) (symbol : Symbol) :
    Passes s (pass symbol) (expect symbol s.words) := by
  -- The symbol is looked for at the cursor and in the words.
  unfold Passes pass expect
  refine .look (fun _ => rfl) ?_
  by_cases starts : startsWith symbol s.words = true
  · rw [if_pos starts, if_pos starts]
    exact advance_passes ready (more_of_startsWith starts)
  · rw [if_neg starts, if_neg starts]
    exact .fault ready

/-- Fewer words are left behind a symbol. -/
theorem expect_shorter {symbol : Symbol} {tokens rest : List Token}
    (passed : expect symbol tokens = .ok rest) : rest.length < tokens.length := by
  -- The symbol is taken.
  obtain ⟨line, rfl⟩ := expect_eq_ok.mp passed
  exact Nat.lt_succ_self _

/-- Fewer words are left behind a name. -/
theorem name_shorter {expected : Expectation} {name : String} {tokens rest : List Token}
    (read : Source.name expected tokens = .ok (name, rest)) : rest.length < tokens.length := by
  -- The name is taken.
  obtain ⟨line, rfl, -⟩ := name_eq_ok.mp read
  exact Nat.lt_succ_self _

/-- A name is read when the cursor is on an identifier that is not reserved. -/
theorem name_reads (ready : s.Ready room) (expected : Expectation) :
    Reads id s (name expected) (Source.name expected s.words) := by
  unfold Walk.name
  refine .look (fun _ => rfl) ?_
  -- Some word is at the cursor, if only the one that ends the source.
  obtain ⟨⟨lexeme, line⟩, rest, split⟩ := ready.sound.ends.exists_cons
  rw [split]
  cases lexeme with
  | identifier name =>
    simp only [headToken_cons, Source.name]
    refine .branch (fun _ => ?_) fun _ => ?_
    · rw [← split]
      exact .fault ready
    · refine .advance ready (by rw [split]; rfl) fun ready' words => ?_
      rw [split, List.tail_cons] at words
      rw [← words]
      exact .done ready' name
  | _ =>
    -- No other word is a name.
    simp only [headToken_cons, Source.name]
    rw [← split]
    exact .fault ready

/-- A type is read when the cursor is on its keyword. -/
theorem dataType_reads (ready : s.Ready room) :
    Reads id s dataType (Source.dataType s.words) := by
  unfold Walk.dataType
  refine .look (fun _ => rfl) ?_
  -- Some word is at the cursor, if only the one that ends the source.
  obtain ⟨⟨lexeme, line⟩, rest, split⟩ := ready.sound.ends.exists_cons
  rw [split]
  -- Only an identifier can be the keyword of a type.
  cases lexeme with
  | identifier name =>
    simp only [headToken_cons, Source.dataType]
    cases DataType.ofKeyword? name with
    | none =>
      have line_eq : line = (headToken s.words).line := by rw [split]; rfl
      rw [line_eq]
      exact .fault ready
    | some type =>
      refine .advance ready (by rw [split]; rfl) fun ready' words => ?_
      rw [split, List.tail_cons] at words
      rw [← words]
      exact .done ready' type
  | _ =>
    simp only [headToken_cons, Source.dataType]
    rw [← split]
    exact .fault ready

end Shading.Walk

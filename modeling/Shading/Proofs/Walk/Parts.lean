import Shading.Proofs.Grammar.Parts
import Shading.Proofs.Walk.Reads

/-! Conditionals are read with a state as they are read from the words alone, whatever is in them. -/

namespace Shading.Walk

open Source Grammar

variable {α β γ δ : Type} {s : State} {room : Nat}

/-- What parts of a source amount to, one after the other: a draft and the elements they stand for. -/
structure Meaning (isDefined : String → Bool) (choice : Guard → List α → List α → α) (β : Type) where
  effect : (active : Bool) → Draft → List α → Except DeclarationError (Draft × List β)
  nil : ∀ active draft, effect active draft [] = .ok (draft, [])
  append : ∀ active draft parts more, effect active draft (parts ++ more) = do
    let (draft, elements) ← effect active draft parts
    let (draft, others) ← effect active draft more
    return (draft, elements ++ others)
  /-- A choice amounts to the parts that are chosen. -/
  chosen : ∀ active draft guard yes no, effect active draft [choice guard yes no] =
    effect active draft (if guard.holds isDefined then yes else no)
  /-- Where declarations do not count, nothing is declared. -/
  idle : ∀ draft parts, ∃ elements, effect false draft parts = .ok (draft, elements)

variable {isDefined : String → Bool} {choice : Guard → List α → List α → α}

/-- What the outcome of a reading of words tells of a reading with a state. -/
def Meaning.foretell (meaning : Meaning isDefined choice β) (active : Bool) (draft : Draft)
    (outcome : Outcome α) : Except ParseError (List β × Draft × List Token) :=
  match meaning.effect active draft outcome.completed, outcome.rest with
  -- What was completed was declared before the fault that ended the reading was met.
  | .error error, _ => .error (.declaration error)
  | .ok _, .error error => .error (.grammar error)
  | .ok (draft, elements), .ok rest => .ok (elements, draft, rest)

/-- A value is told only where the reading of the words has no fault. -/
theorem Meaning.rest_eq_ok (meaning : Meaning isDefined choice β) {active : Bool} {draft : Draft}
    {outcome : Outcome α} {elements : List β} {after : Draft} {rest : List Token}
    (told : meaning.foretell active draft outcome = .ok (elements, after, rest)) :
    outcome.rest = .ok rest := by
  -- A fault of the reading, or of what is declared by it, leaves nothing to be told.
  unfold foretell at told
  split at told
  · cases told
  · cases told
  · rename_i read
    cases told
    exact read

/-- A reader of parts does what a reading of the words from the cursor on tells. -/
def ReadsParts (meaning : Meaning isDefined choice β) (s : State) (reader : Walk (List β))
    (outcome : Outcome α) : Prop :=
  Gives s (reader s) (meaning.foretell s.active s.draft outcome)

/-- What is read first by a reading that declares nothing is followed by what the outcome tells. -/
theorem ReadsParts.bind {meaning : Meaning isDefined choice β} {form : γ → δ} {first : Walk δ}
    {next : δ → Walk (List β)} {reading : Except GrammarError (γ × List Token)}
    {outcome : Outcome α} (ready : s.Ready room) (reads : Reads form s first reading)
    (failed : ∀ error, reading = .error error → outcome = .fault error)
    (later : ∀ value {s' : State}, s'.Ready room → reading = .ok (value, s'.words) →
      ReadsParts meaning s' (next (form value)) outcome) :
    ReadsParts meaning s (first >>= next) outcome := by
  refine Gives.after reads (fun error fault => ?_) fun value s' moves told => ?_
  · -- Nothing was completed before the fault, so nothing is declared.
    rw [failed error fault]
    simp [Meaning.foretell, Outcome.fault, meaning.nil]
  · have reads := later value (moves.ready ready) told
    rw [ReadsParts, moves.active, moves.draft] at reads
    exact reads

/-- The same holds where words are passed first. -/
theorem ReadsParts.bindPass {meaning : Meaning isDefined choice β} {first : Walk Unit}
    {next : Unit → Walk (List β)} {passing : Except GrammarError (List Token)}
    {outcome : Outcome α} (ready : s.Ready room) (passes : Passes s first passing)
    (failed : ∀ error, passing = .error error → outcome = .fault error)
    (later : ∀ {s' : State}, s'.Ready room → passing = .ok s'.words →
      ReadsParts meaning s' (next ()) outcome) :
    ReadsParts meaning s (first >>= next) outcome := by
  -- The reader fails with the words, or it goes on behind them in a state that is ready.
  refine Gives.afterPass passes (fun error fault => ?_) fun s' moves told => ?_
  · rw [failed error fault]
    simp [Meaning.foretell, Outcome.fault, meaning.nil]
  · have reads := later (moves.ready ready) told
    rw [ReadsParts, moves.active, moves.draft] at reads
    exact reads

/-- What is asked of the word at the cursor is asked of the words from the cursor on. -/
theorem ReadsParts.look {meaning : Meaning isDefined choice β} {ask : List Token → γ}
    {next : γ → Walk (List β)} {outcome : Outcome α}
    (first : ∀ tokens, ask [headToken tokens] = ask tokens)
    (reads : ReadsParts meaning s (next (ask s.words)) outcome) :
    ReadsParts meaning s (looking ask >>= next) outcome :=
  -- What is read of parts is given, so that the rule for giving applies.
  Gives.look first reads

/-- A record is kept of a reading of parts that takes a word. -/
theorem ReadsParts.visiting {meaning : Meaning isDefined choice β} {call : Call}
    {inner : Walk (List β)} {outcome : Outcome α} (ready : s.Ready room)
    (reads : ReadsParts meaning s inner outcome)
    (shorter : ∀ {rest}, outcome.rest = .ok rest → rest.length < s.words.length) :
    ReadsParts meaning s (visiting call inner) outcome :=
  -- What is told of the outcome is told only where it has no fault.
  Gives.visiting ready reads fun told => shorter (meaning.rest_eq_ok told)

/-- A reading of parts one level deeper is that of the level, or there is no level left for it. -/
theorem ReadsParts.nested {meaning : Meaning isDefined choice β} {inner : Walk (List β)}
    {outcome : Outcome α} (ready : s.Ready room)
    (full : room = 0 → outcome = ⟨[], tooDeep s.words⟩)
    (inside : ∀ fewer s', room = fewer + 1 → s'.Ready fewer → s'.words = s.words →
      ReadsParts meaning s' inner outcome) :
    ReadsParts meaning s (nested inner) outcome := by
  -- Without a level nothing is read, so that nothing is told either.
  refine Gives.nested ready (fun none => ?_) fun fewer less below =>
    inside fewer s.deeper less below rfl
  simp [full none, Meaning.foretell, meaning.nil, tooDeep]

/-- More than the end of the source is left when the first word is not the one that ends it. -/
theorem ReadsParts.more {meaning : Meaning isDefined choice β} {next : Bool → Walk (List β)}
    {outcome : Outcome α}
    (reads : ReadsParts meaning s (next (!(headToken s.words).isEnd)) outcome) :
    ReadsParts meaning s (hasMore >>= next) outcome := by
  -- The word at the cursor tells whether there is more.
  rw [← s.current_eq] at reads
  exact reads

/-- What follows the first word is read behind it. -/
theorem ReadsParts.advance {meaning : Meaning isDefined choice β} {next : Unit → Walk (List β)}
    {outcome : Outcome α} (ready : s.Ready room) (more : (headToken s.words).isEnd = false)
    (later : ∀ {s' : State}, s'.Ready room → s'.words = s.words.tail →
      ReadsParts meaning s' (next ()) outcome) :
    ReadsParts meaning s (advance >>= next) outcome := by
  -- Moving on does not fail, as the end is not the first word.
  refine .bindPass ready (advance_passes ready more) ?_ fun ready' passed =>
    later ready' (Except.ok.inj passed).symm
  rintro error ⟨⟩

/-- Parts that are read without declaring anything are read as what they amount to. -/
theorem ReadsParts.of_reads {meaning : Meaning isDefined choice β} {form : γ → List β}
    {reader : Walk (List β)} {reading : Except GrammarError (γ × List Token)} {outcome : Outcome α}
    (reads : Reads form s reader reading)
    (same : meaning.foretell s.active s.draft outcome = foretell form s.draft reading) :
    ReadsParts meaning s reader outcome := by
  -- Both say what is given in the same state.
  rw [ReadsParts, same]
  exact reads

/-- What the outcome of a region tells, of which nothing is left if it is not taken. -/
def Meaning.foretellRegion (meaning : Meaning isDefined choice β) (taken active : Bool)
    (draft : Draft) (outcome : Outcome α) : Except ParseError (List β × Draft × List Token) := do
  let (elements, draft, rest) ← meaning.foretell (active && taken) draft outcome
  return (if taken then elements else [], draft, rest)

/-- What one outcome tells is followed by what the next one tells. -/
theorem Meaning.foretell_andThen (meaning : Meaning isDefined choice β) (active : Bool)
    (draft : Draft) (outcome : Outcome α) (next : PartsParser α) :
    meaning.foretell active draft (outcome.andThen next) = (do
      let (elements, draft, rest) ← meaning.foretell active draft outcome
      let (others, draft, rest) ← meaning.foretell active draft (next rest)
      return (elements ++ others, draft, rest)) := by
  obtain ⟨completed, rest⟩ := outcome
  cases rest with
  | error error =>
    -- Nothing is read after a fault.
    simp only [Outcome.andThen, Meaning.foretell]
    cases meaning.effect active draft completed <;> rfl
  -- The effects of both are joined, and what is left is what the second one leaves.
  | ok rest =>
    simp only [Outcome.andThen, Meaning.foretell, meaning.append]
    cases meaning.effect active draft completed with
    | error error => rfl
    | ok first =>
      simp only [ok_bind]
      cases meaning.effect active first.1 (next rest).completed with
      | error error => rfl
      | ok second => cases (next rest).rest <;> rfl

/-- Whatever a reading of parts accepts takes a word. -/
def Takes (parser : PartsParser α) : Prop :=
  SoundParts parser fun _ tokens rest => rest.length < tokens.length

/-- Parts up to a closing brace take at least the brace. -/
theorem untilBrace_takes {parser : PartsParser α} (takes : Takes parser) (limit : Nat) :
    Takes (Source.untilBrace parser limit) :=
  -- The brace is taken in any case, and each part takes more words.
  @untilBrace_sound _ _ _ (fun _ tokens rest => rest.length < tokens.length) takes
    (Nat.lt_succ_self _) (fun first more => Nat.lt_trans more first) limit

/-- Parts up to a closing brace are read as they are from the words alone. -/
theorem untilBrace_reads {meaning : Meaning isDefined choice β} {reader : Walk (List β)}
    {parser : PartsParser α}
    (part : ∀ {s : State}, s.Ready room → ReadsParts meaning s reader (parser s.words))
    (takes : Takes parser) (limit : Nat) {limit' : Nat} (ready : s.Ready room)
    (enough : s.words.length < limit) (enough' : s.words.length ≤ limit') :
    ReadsParts meaning s (untilBrace reader limit) (Source.untilBrace parser limit' s.words) := by
  -- Every part takes a word, so both limits go down with the words that are left.
  induction limit generalizing s limit' with
  | zero => omega
  | succ limit ih =>
    obtain ⟨below, rfl⟩ := ready.sound.limit_succ enough'
    unfold Walk.untilBrace Source.untilBrace
    refine .look (fun _ => rfl) ?_
    -- The brace is looked for first, as it is from the words alone.
    by_cases closed : startsWith .rightBrace s.words = true
    · rw [if_pos closed, if_pos closed]
      refine .advance ready (more_of_startsWith closed) fun {s'} ready' words => ?_
      rw [← words]
      refine .of_reads (Reads.done ready' [] : Reads id s' _ _) ?_
      simp [Meaning.foretell, meaning.nil, foretell]
    · rw [if_neg closed, if_neg closed]
      refine .more ?_
      by_cases atEnd : (headToken s.words).isEnd = true
      · -- A source that ends before the brace is at fault.
        rw [atEnd, if_neg (by simp), if_pos rfl]
        refine .of_reads (Reads.fault ready : Reads id s _ _) ?_
        simp [Meaning.foretell, meaning.nil, foretell, Source.unexpected]
      · rw [if_neg atEnd]
        rw [Bool.not_eq_true] at atEnd
        rw [atEnd, Bool.not_false, if_pos rfl]
        unfold ReadsParts
        rw [meaning.foretell_andThen]
        refine .bind (part ready) fun first s₁ keeps active told => ?_
        have fewer := takes (meaning.rest_eq_ok told)
        have more := ih (keeps.ready ready) (by omega) (show s₁.words.length ≤ below by omega)
        rw [ReadsParts, active] at more
        exact .bind more fun others s₂ keeps₂ _ _ => .ok (.refl keeps₂.sound) rfl rfl rfl

/-- Parts between braces take at least the braces. -/
theorem braced_takes {parser : PartsParser α} (takes : Takes parser) :
    Takes (Source.braced parser) := by
  -- Both braces are taken, and the parts between them at least leave nothing more.
  intro tokens rest read
  obtain ⟨line, inside, rfl, readInside, -⟩ := braced_rest_eq_ok.mp read
  exact Nat.lt_succ_of_lt (untilBrace_takes takes _ readInside)

/-- Parts between braces are read as they are from the words alone. -/
theorem braced_reads {meaning : Meaning isDefined choice β} {reader : Walk (List β)}
    {parser : PartsParser α}
    (part : ∀ {s : State}, s.Ready room → ReadsParts meaning s reader (parser s.words))
    (takes : Takes parser) (ready : s.Ready room) :
    ReadsParts meaning s (braced reader) (Source.braced parser s.words) := by
  -- The limits of both loops are made of the words behind the brace.
  refine .bindPass ready (pass_passes ready .leftBrace) (fun error unopened => ?_)
    fun ready₁ opened => ?_
  · simp [Source.braced, unopened]
  · simp only [Source.braced, opened]
    exact .looping fun limit enough =>
      untilBrace_reads part takes limit ready₁ enough (Nat.le_refl _)

/-- A region is read as parts between braces, of which nothing is left if it is not taken. -/
theorem region_reads {meaning : Meaning isDefined choice β} {reader : Walk (List β)}
    {parser : PartsParser α} (taken : Bool)
    (part : ∀ {s : State}, s.Ready room → ReadsParts meaning s (nested reader) (parser s.words))
    (takes : Takes parser) (ready : s.Ready room) :
    Gives s (region taken reader s)
      (meaning.foretellRegion taken s.active s.draft (Source.braced parser s.words)) := by
  refine .visiting ready ?_ ?_
  -- The brace is passed with the switch as it was.
  · refine .afterPass (pass_passes ready .leftBrace) (fun error unopened => ?_)
      fun s₁ moves opened => ?_
    · simp [Source.braced, unopened, Meaning.foretellRegion, Meaning.foretell, Outcome.fault,
        meaning.nil]
      rfl
    · simp only [Source.braced, opened, Meaning.foretellRegion]
      have ready₁ := moves.ready ready
      -- The switch is the only thing that is different within the region.
      let inside : State := { s₁ with active := s₁.active && taken }
      have ready₂ : inside.Ready room := ⟨ready₁.sound.of_same rfl rfl rfl, ready₁.fits⟩
      have reads : ReadsParts meaning inside (looping (Walk.untilBrace (nested reader)))
          (Source.untilBrace parser s₁.words.length s₁.words) :=
        .looping fun limit enough =>
          untilBrace_reads part takes limit ready₂ enough (Nat.le_refl _)
      rw [← moves.active, ← moves.draft]
      exact .bind (.gated reads) fun elements s₂ keeps _ _ => .ok (.refl keeps.sound) rfl rfl rfl
  · intro value draft rest told
    obtain ⟨⟨elements, after, rest'⟩, read, returned⟩ := bind_eq_ok.mp told
    cases returned
    exact braced_takes takes (meaning.rest_eq_ok read)

/-- What the outcome of a conditional tells is told by its regions one after the other. -/
theorem Meaning.foretell_conditional (meaning : Meaning isDefined choice β) (active : Bool)
    (draft : Draft) {parser further : PartsParser α} {guard : Guard} {tokens rest : List Token}
    (read : Source.guard tokens = .ok (guard, rest)) :
    meaning.foretell active draft (Source.conditional choice parser further tokens) = (do
      let taken := guard.holds isDefined
      let (elements, draft, rest) ←
        meaning.foretellRegion taken active draft (Source.braced parser rest)
      let (others, draft, rest) ←
        meaning.foretellRegion (!taken) active draft (Source.alternative parser further rest)
      return (elements ++ others, draft, rest)) := by
  simp only [Source.conditional, read]
  generalize Source.braced parser rest = yes
  obtain ⟨completed, after⟩ := yes
  cases taken : guard.holds isDefined with
  | true =>
    -- What follows the first region declares nothing and leaves nothing.
    cases after with
    | error error =>
      simp only [Meaning.foretellRegion, Meaning.foretell, meaning.chosen, taken, Bool.and_true,
        if_true]
      cases meaning.effect active draft completed <;> rfl
    | ok rest =>
      simp only [Meaning.foretellRegion, Meaning.foretell, meaning.chosen, taken, Bool.and_true,
        Bool.not_true, Bool.and_false, if_true]
      cases meaning.effect active draft completed with
      | error error => rfl
      -- The second region is read as well, but it does not count.
      | ok first =>
        obtain ⟨others, idle⟩ := meaning.idle first.1 (Source.alternative parser further rest).completed
        simp only [ok_bind, pure_eq, idle]
        cases (Source.alternative parser further rest).rest with
        | error error => rfl
        | ok rest => simp
  | false =>
    -- The first region declares nothing and leaves nothing.
    obtain ⟨elements, idle⟩ := meaning.idle draft completed
    cases after with
    | error error =>
      simp only [Meaning.foretellRegion, Meaning.foretell, meaning.chosen, taken, meaning.nil,
        Bool.and_false, idle, Bool.false_eq_true, if_false]
      rfl
    | ok rest =>
      simp only [Meaning.foretellRegion, Meaning.foretell, meaning.chosen, taken, Bool.and_false,
        Bool.not_false, Bool.and_true, idle, Bool.false_eq_true, if_false, ok_bind, pure_eq]
      cases meaning.effect active draft (Source.alternative parser further rest).completed with
      | error error => rfl
      | ok second => cases (Source.alternative parser further rest).rest <;> rfl

/-- Parts on the next level, and conditionals of them, are read as they are from the words alone. -/
structure ReadsNested (meaning : Meaning isDefined choice β) (room : Nat)
    (reader chained : Walk (List β)) (parser further : PartsParser α) : Prop where
  part : ∀ {s : State}, s.Ready room → ReadsParts meaning s (nested reader) (parser s.words)
  chained : ∀ {s : State}, s.Ready room → startsConditional s.words = true →
    ReadsParts meaning s (nested chained) (further s.words)
  takes : Takes parser
  chainedTakes : ∀ {tokens rest : List Token}, startsConditional tokens = true →
    (further tokens).rest = .ok rest → rest.length < tokens.length

/-- A conditional takes at least one word. -/
theorem ReadsNested.conditional_takes {meaning : Meaning isDefined choice β}
    {reader chained : Walk (List β)} {parser further : PartsParser α}
    (nested : ReadsNested meaning room reader chained parser further) {tokens rest : List Token}
    (starts : startsConditional tokens = true)
    (read : (Source.conditional choice parser further tokens).rest = .ok rest) :
    rest.length < tokens.length := by
  refine @conditional_sound _ _ _ _ _ choice (fun _ tokens rest => rest.length < tokens.length)
    (fun _ tokens rest => rest.length ≤ tokens.length) (fun _ tokens rest => rest.length < tokens.length)
    (untilBrace_takes nested.takes) ?_ ?_ starts read
  · -- The conditional after `else` stands on a test.
    exact @alternative_sound _ _ _ (fun _ tokens rest => rest.length < tokens.length)
      (fun _ tokens rest => rest.length ≤ tokens.length)
      (fun _ tokens rest => rest.length < tokens.length) (untilBrace_takes nested.takes)
      nested.chainedTakes (Nat.le_refl _)
      (fun {_ _ _ _ _} inside => by simp only [List.length_cons]; omega)
      (fun {_ _ _ _} further => by simp only [List.length_cons]; omega)
  · -- The test and the brace take words, and what is behind them gives none back.
    intro key present yes no line line' line'' tokens afterYes rest free first second
    simp only [List.length_cons]
    omega

/-- What follows the first region of a conditional is read as it is from the words alone. -/
theorem ReadsNested.alternative_reads {meaning : Meaning isDefined choice β}
    {reader chained : Walk (List β)} {parser further : PartsParser α}
    (nested : ReadsNested meaning room reader chained parser further) (taken : Bool)
    (yes : List β) (ready : s.Ready room) :
    Gives s (Walk.alternative taken reader chained yes s) (do
      let (others, draft, rest) ← meaning.foretellRegion (!taken) s.active s.draft
        (Source.alternative parser further s.words)
      return (yes ++ others, draft, rest)) := by
  unfold Walk.alternative Source.alternative
  refine .look (fun _ => rfl) ?_
  -- The word behind the region tells whether there is an alternative.
  by_cases met : (headKeyword? s.words == some .otherwise) = true
  · rw [if_pos met, if_pos met]
    have more := more_of_headKeyword (by simpa using met)
    refine .afterPass (advance_passes ready more) (by rintro error ⟨⟩) fun s₁ moves passed => ?_
    rw [Except.ok.inj passed, ← moves.active, ← moves.draft]
    have ready₁ := moves.ready ready
    refine .look (fun _ => rfl) ?_
    by_cases test : startsConditional s₁.words = true
    · rw [if_pos test, if_pos test]
      -- The alternative counts where the first region does not.
      let inside : State := { s₁ with active := s₁.active && !taken }
      have ready₂ : inside.Ready room := ⟨ready₁.sound.of_same rfl rfl rfl, ready₁.fits⟩
      rw [Meaning.foretellRegion, bind_assoc]
      refine .bind (.gatedAlways (nested.chained ready₂ test)) fun no s₂ keeps _ _ => ?_
      have left : (if taken = true then yes else yes ++ no) =
          yes ++ (if (!taken) = true then no else []) := by
        cases taken <;> simp
      rw [left]
      exact .ok (.refl keeps.sound) rfl rfl rfl
    · rw [if_neg test, if_neg test]
      exact .bind (region_reads (!taken) nested.part nested.takes ready₁)
        fun no s₂ keeps _ _ => .ok (.refl keeps.sound) rfl rfl rfl
  · -- Without an alternative, the first region is all there is.
    rw [if_neg met, if_neg met]
    have nothing : meaning.foretellRegion (!taken) s.active s.draft ⟨[], .ok s.words⟩ =
        .ok ([], s.draft, s.words) := by
      simp [Meaning.foretellRegion, Meaning.foretell, meaning.nil]
    rw [nothing]
    show Gives s (some (.ok yes, s)) (.ok (yes ++ [], s.draft, s.words))
    rw [List.append_nil]
    exact .ok (.refl ready.sound) rfl rfl rfl

/-- A conditional is read as it is from the words alone. -/
theorem ReadsNested.conditional_reads {meaning : Meaning isDefined choice β}
    {reader chained : Walk (List β)} {parser further : PartsParser α}
    (nested : ReadsNested meaning room reader chained parser further) (ready : s.Ready room)
    (starts : startsConditional s.words = true) :
    ReadsParts meaning s (Walk.conditional isDefined reader chained)
      (Source.conditional choice parser further s.words) := by
  refine .visiting ready (.look (fun _ => rfl) ?_) (nested.conditional_takes starts)
  -- The test is there, so that only its key can be at fault.
  obtain ⟨present, line, after, split⟩ := startsConditional_iff.mp starts
  refine .advance ready (by rw [split]; rfl) fun ready₁ words => ?_
  refine .bind ready₁ (name_reads ready₁ .defineName) (fun error unread => ?_)
    fun key {s₂} ready₂ read => ?_
  · rw [words] at unread
    simp only [Source.conditional, Source.guard, unread]
    rfl
  · rw [words] at read
    -- Both keywords of a test are told apart by either of them.
    have taken : (isDefined key != (headKeyword? s.words == some .ifUndefined)) =
        Guard.holds isDefined ⟨key, headKeyword? s.words == some .ifDefined⟩ := by
      rw [split, headKeyword?_word, Keyword.ofSpelling?_spelling]
      cases present <;> cases given : isDefined key <;> simp [testKeyword, Guard.holds, given]
    have readGuard : Source.guard s.words =
        .ok (⟨key, headKeyword? s.words == some .ifDefined⟩, s₂.words) := by
      rw [Source.guard, read]
      rfl
    rw [ReadsParts, meaning.foretell_conditional _ _ readGuard, id, taken]
    exact .bind (region_reads _ nested.part nested.takes ready₂) fun yes s₃ keeps active _ =>
      active ▸ nested.alternative_reads _ yes (keeps.ready ready₂)

end Shading.Walk

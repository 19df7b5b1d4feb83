import Shading.Glsl.Writer
import Shading.Proofs.Grammar.Accepts
import Shading.Proofs.Program.Draft
import Shading.Proofs.Selection.Unconditional

/-! Of a define set a source sees only which of the keys are present that it tests. -/

namespace Shading

/-- The identifiers that follow the keyword of a test for a define, in whatever region they stand. -/
def testedKeys (tokens : List Token) : List String :=
  (tokens.zip tokens.tail).filterMap fun (test, key) =>
    match test.keyword?, key.lexeme with
    | some .ifDefined, .identifier name => some name
    | some .ifUndefined, .identifier name => some name
    | _, _ => none

/-- The keys that some words test are tested by all words that they are among. -/
theorem mem_testedKeys_cons {first : Token} {rest : List Token} {key : String}
    (tested : key ∈ testedKeys rest) : key ∈ testedKeys (first :: rest) := by
  cases rest with
  | nil => cases tested
  | cons second more =>
    -- The first two words are one more pair in front of all others.
    have parts : testedKeys (first :: second :: more) =
        testedKeys [first, second] ++ testedKeys (second :: more) := by
      simp only [testedKeys, ← List.filterMap_append]
      rfl
    rw [parts]
    exact List.mem_append_right _ tested

namespace Grammar

open Source

/-- Two define sets have the same keys among those that some words test. -/
def AgreeOn (d d' : String → Bool) (tokens : List Token) : Prop :=
  ∀ key ∈ testedKeys tokens, d key = d' key

variable {d d' : String → Bool} {room : Nat} {tokens rest : List Token}

namespace AgreeOn

/-- Define sets that agree on words agree on those behind the first one. -/
theorem tail (agree : AgreeOn d d' tokens) : AgreeOn d d' tokens.tail := by
  -- The keys behind the first word are among all keys.
  cases tokens with
  | nil => exact agree
  | cons first rest => exact fun key tested => agree key (mem_testedKeys_cons tested)

/-- Define sets that agree on words agree on those that remain of them. -/
theorem remains (agree : AgreeOn d d' tokens) (remains : Remains rest tokens) : AgreeOn d d' rest := by
  obtain ⟨words, rfl, -⟩ := remains
  -- The words that were taken are passed one by one.
  induction words with
  | nil => exact agree
  | cons first words ih => exact ih agree.tail

/-- Define sets agree on the key of the test that the words start with. -/
theorem test {present : Bool} {key : String} {line line' : Nat}
    (agree : AgreeOn d d' (word (testKeyword present).spelling line :: word key line' :: rest)) :
    d key = d' key := by
  -- The key of the test is the first one.
  refine agree key ?_
  cases present <;> simp [testedKeys, testKeyword, Token.keyword?]

end AgreeOn

/-- A guard is met under both define sets or under none when they agree on its key. -/
theorem holds_congr {guard : Shading.Guard} (agree : d guard.key = d' guard.key) :
    guard.holds d = guard.holds d' := by
  -- A guard only asks whether its key is present.
  rw [Shading.Guard.holds, Shading.Guard.holds, agree]

/-- The statements of a phrase are the same under both define sets. -/
def BodyPhrase.SameUnder (d d' : String → Bool) : BodyPhrase → Prop
  | .statement s | .selection s | .conditional s => s.resolve d = s.resolve d'
  | .block ss | .blockEnd ss | .region ss | .alternative ss => resolveAll d ss = resolveAll d' ss

/-- Statements are the same under define sets that agree on the keys that their words test. -/
theorem BodyPhrase.Spans.sameUnder {phrase : BodyPhrase} (spans : phrase.Spans room tokens rest)
    (agree : AgreeOn d d' tokens) : phrase.SameUnder d d' := by
  -- A statement is the same when the blocks in it are, which stand behind its other words.
  induction spans with
  | declare | initialise | assign | evaluate | discard | leave => rfl
  | selected _ ih | tested _ ih => exact ih agree
  | ifThen condition _ yes =>
    have same := yes (agree.tail.tail.remains condition.remains.drop)
    simp only [SameUnder, SourceStatement.resolve] at same ⊢
    rw [same]
  -- The keys behind the first block are among those of the statement.
  | ifThenElse condition spansYes _ yes no =>
    have after := agree.tail.tail.remains condition.remains.drop
    have same := yes after
    have same' := no (after.remains spansYes.remains.drop)
    simp only [SameUnder, SourceStatement.resolve] at same same' ⊢
    rw [same, same']
  | ifElseIf condition spansYes _ yes no =>
    have after := agree.tail.tail.remains condition.remains.drop
    have same := yes after
    have same' := no (after.remains spansYes.remains.drop)
    simp only [SameUnder, SourceStatement.resolve, resolveAll] at same same' ⊢
    rw [same, same']
  | conditional _ spansYes _ yes no =>
    have after := agree.tail.tail.tail
    have same := yes after
    have same' := no (after.remains spansYes.remains)
    simp only [SameUnder, SourceStatement.resolve] at same same' ⊢
    -- Both define sets take the same branch.
    rw [holds_congr agree.test, same, same']
  | block _ ih => exact ih agree.tail
  | endBlock | endRegion | without => rfl
  | nextInBlock spansFirst _ first more | nextInRegion spansFirst _ first more =>
    -- Statements in a row are the same one by one, as the keys of each are among those of the row.
    have same := first agree
    have same' := more (agree.remains spansFirst.remains)
    simp only [SameUnder, resolveAll] at same same' ⊢
    rw [same, same']
  | otherwise _ ih => exact ih agree.tail.tail
  | chained _ ih =>
    have same := ih agree.tail
    simp only [SameUnder, resolveAll] at same ⊢
    rw [same]

section Parts

variable {α : Type} {same : α → Prop} {part chained : PartsParser α}

/-- The completed parts are the same under both define sets, and so are the tests that are left. -/
structure Unaffected (d d' : String → Bool) (same : α → Prop) (outcome : Outcome α) : Prop where
  completed : ∀ part ∈ outcome.completed, same part
  left : ∀ rest, outcome.rest = .ok rest → AgreeOn d d' rest

namespace Unaffected

/-- A fault before anything was completed is the same under all define sets. -/
theorem error (error : GrammarError) : Unaffected d d' same ⟨[], .error error⟩ :=
  -- Nothing was completed and nothing is left.
  ⟨by simp, by simp⟩

/-- Nothing is completed, and the same words are left. -/
theorem nothing (agree : AgreeOn d d' tokens) : Unaffected d d' same ⟨[], .ok tokens⟩ :=
  -- Nothing was completed.
  ⟨by simp, by rintro _ ⟨⟩; exact agree⟩

/-- Parts are the same when those before them and those after them are. -/
theorem andThen {outcome : Outcome α} {next : PartsParser α} (first : Unaffected d d' same outcome)
    (second : ∀ tokens, AgreeOn d d' tokens → Unaffected d d' same (next tokens)) :
    Unaffected d d' same (outcome.andThen next) := by
  rcases outcome with ⟨completed, error | rest⟩
  -- After a fault nothing more is read.
  · exact first
  · have following := second rest (first.left rest rfl)
    refine ⟨fun part member => ?_, following.left⟩
    rcases List.mem_append.mp member with before | after
    · exact first.completed part before
    · exact following.completed part after

end Unaffected

/-- Parts up to a closing brace are the same when each of them is. -/
theorem untilBrace_unaffected
    (each : ∀ tokens, AgreeOn d d' tokens → Unaffected d d' same (part tokens)) (limit : Nat) :
    ∀ tokens, AgreeOn d d' tokens → Unaffected d d' same (untilBrace part limit tokens) := by
  -- By the limit of the loop.
  induction limit with
  | zero =>
    intro tokens agree
    rw [untilBrace]
    split
    · exact .nothing agree.tail
    · exact .error _
  | succ limit ih =>
    intro tokens agree
    rw [untilBrace]
    split
    · exact .nothing agree.tail
    · -- Each part leaves words on whose tests both sets agree as well.
      split
      · exact .error _
      · exact (each tokens agree).andThen ih

/-- Parts between braces are the same when each of them is. -/
theorem braced_unaffected
    (each : ∀ tokens, AgreeOn d d' tokens → Unaffected d d' same (part tokens))
    (agree : AgreeOn d d' tokens) : Unaffected d d' same (braced part tokens) := by
  -- The brace is looked for without regard to defines.
  unfold braced
  cases opened : expect .leftBrace tokens with
  | error fault => exact .error fault
  | ok inside =>
    obtain ⟨line, rfl⟩ := expect_eq_ok.mp opened
    exact untilBrace_unaffected each _ _ agree.tail

/-- What follows the first region of a conditional is the same when each of its parts is. -/
theorem alternative_unaffected
    (each : ∀ tokens, AgreeOn d d' tokens → Unaffected d d' same (part tokens))
    (further : ∀ tokens, startsConditional tokens = true → AgreeOn d d' tokens →
      Unaffected d d' same (chained tokens))
    (agree : AgreeOn d d' tokens) : Unaffected d d' same (alternative part chained tokens) := by
  -- An `else` tests nothing itself.
  unfold alternative
  split
  · split
    · rename_i starts
      exact further _ starts agree.tail
    · exact braced_unaffected each agree.tail
  · exact .nothing agree

/-- A conditional is the same under define sets that agree on its key, whatever ends its reading. -/
theorem conditional_unaffected {choice : Shading.Guard → List α → List α → α}
    (each : ∀ tokens, AgreeOn d d' tokens → Unaffected d d' same (part tokens))
    (further : ∀ tokens, startsConditional tokens = true → AgreeOn d d' tokens →
      Unaffected d d' same (chained tokens))
    (chosen : ∀ guard yes no, d guard.key = d' guard.key → (∀ part ∈ yes, same part) →
      (∀ part ∈ no, same part) → same (choice guard yes no))
    (starts : startsConditional tokens = true) (agree : AgreeOn d d' tokens) :
    Unaffected d d' same (conditional choice part chained tokens) := by
  obtain ⟨present, line, after, rfl⟩ := startsConditional_iff.mp starts
  unfold conditional
  split
  · -- Without a key there is no conditional.
    exact .error _
  · rename_i guard inside readGuard
    obtain ⟨key, line', rfl, -, rfl⟩ := guard_eq_ok.mp readGuard
    have yes := braced_unaffected each agree.tail.tail
    dsimp only
    split
    -- A fault in the first region leaves the other one empty.
    · refine ⟨List.forall_mem_singleton.mpr ?_, nofun⟩
      exact chosen _ _ _ agree.test yes.completed (by simp)
    · rename_i afterYes readYes
      have no := alternative_unaffected each further (yes.left afterYes readYes)
      refine ⟨List.forall_mem_singleton.mpr ?_, no.left⟩
      exact chosen _ _ _ agree.test yes.completed no.completed

end Parts

/-- A top-level part counts for the same under both define sets. -/
def SameItem (d d' : String → Bool) (i : SourceItem) : Prop :=
  activeItems d [i] = activeItems d' [i]

/-- Top-level parts count for the same when each of them does. -/
theorem activeItems_congr {is : List SourceItem} (each : ∀ i ∈ is, SameItem d d' i) :
    activeItems d is = activeItems d' is := by
  -- Part by part.
  induction is with
  | nil => rfl
  | cons i is ih =>
    obtain ⟨first, more⟩ := List.forall_mem_cons.mp each
    rw [activeItems_cons, activeItems_cons d', first, ih more]

/-- A choice counts for the same under define sets that agree on its key. -/
theorem sameItem_choice (guard : Shading.Guard) (yes no : List SourceItem)
    (agree : d guard.key = d' guard.key) (eachYes : ∀ i ∈ yes, SameItem d d' i)
    (eachNo : ∀ i ∈ no, SameItem d d' i) : SameItem d d' (.choice guard yes no) := by
  -- Both sets choose the same region, and the parts in it count alike.
  rw [SameItem, activeItems_choice, activeItems_choice, holds_congr agree,
    activeItems_congr eachYes, activeItems_congr eachNo]

/-- A part that is not conditional counts for the same when its words test the same keys. -/
theorem PlainSpan.sameItem {item : Item (List SourceStatement)}
    (spans : PlainSpan room item tokens rest) (agree : AgreeOn d d' tokens) :
    SameItem d d' (.always item) := by
  -- Only the body of a stage has tests in it.
  cases spans with
  | declaration | layout => rfl
  | stage body =>
    have same : resolveAll d _ = resolveAll d' _ := body.sameUnder agree.tail
    simp [SameItem, activeItems, selectAll, Guarded.select, Item.mapBody, same]

/-- Top-level parts count for the same, up to whatever ends their reading. -/
theorem item_unaffected {inner : ItemParsers}
    (each : ∀ tokens, AgreeOn d d' tokens → Unaffected d d' (SameItem d d') (inner.item tokens))
    (further : ∀ tokens, startsConditional tokens = true → AgreeOn d d' tokens →
      Unaffected d d' (SameItem d d') (inner.conditional tokens)) :
    ∀ tokens, AgreeOn d d' tokens → Unaffected d d' (SameItem d d') (item room inner tokens) := by
  intro tokens agree
  unfold item
  split
  · rename_i starts
    exact conditional_unaffected each further sameItem_choice starts agree
  · -- A part that is not conditional is completed as a whole or not at all.
    cases reading : plainItem room tokens with
    | error fault => exact .error fault
    | ok read =>
      have spans := plainItem_sound room reading
      refine ⟨List.forall_mem_singleton.mpr (spans.sameItem agree), ?_⟩
      -- What is behind the part tests no key that the words did not.
      rintro _ ⟨⟩
      exact agree.remains spans.remains

/-- The readers of a number of levels complete the same parts under both define sets. -/
theorem itemParsers_unaffected (room : Nat) :
    (∀ tokens, AgreeOn d d' tokens →
        Unaffected d d' (SameItem d d') ((itemParsers room).item tokens)) ∧
      ∀ tokens, startsConditional tokens = true → AgreeOn d d' tokens →
        Unaffected d d' (SameItem d d') ((itemParsers room).conditional tokens) := by
  induction room with
  -- With no level left, nothing is completed.
  | zero => exact ⟨fun _ _ => .error _, fun _ _ _ => .error _⟩
  | succ room ih =>
    obtain ⟨each, further⟩ := ih
    exact ⟨item_unaffected each further,
      fun _ starts agree => conditional_unaffected each further sameItem_choice starts agree⟩

/-- All that is completed of a source counts for the same under define sets that agree on its tests. -/
theorem activeItems_agree (room : Nat) (agree : AgreeOn d d' tokens) :
    activeItems d (sourceItems room tokens).completed =
      activeItems d' (sourceItems room tokens).completed := by
  have each : ∀ tokens, AgreeOn d d' tokens →
      Unaffected d d' (SameItem d d') (item room (itemParsers room) tokens) :=
    item_unaffected (itemParsers_unaffected room).1 (itemParsers_unaffected room).2
  -- From part to part: the keys that are tested behind one are among those of the source.
  have whole : ∀ limit tokens, AgreeOn d d' tokens → Unaffected d d' (SameItem d d')
      (untilEnd (item room (itemParsers room)) limit tokens) := by
    intro limit
    induction limit with
    | zero => exact fun _ agree => .nothing agree
    | succ limit ih =>
      intro tokens agree
      rw [untilEnd]
      split
      · exact .nothing agree
      · exact (each tokens agree).andThen ih
  -- The parts that are completed are told one by one.
  exact activeItems_congr (whole _ _ agree).completed

end Grammar

namespace Program

/--
Of a define set a source sees only which of the keys are present that it tests.

Under two define sets with the same keys among those that stand behind `ifdef` or `ifndef`, a source
has the same error, or is the same program but for the define set itself, with the same texts.
-/
theorem parse_presence {source : String} {defines defines' : Defines}
    (agree : ∀ tokens, tokenize source = .ok tokens →
      ∀ key ∈ testedKeys tokens, defines.isDefined key = defines'.isDefined key) (name : String) :
    (∃ error, parse name defines source = .error error ∧ parse name defines' source = .error error) ∨
      ∃ program, parse name defines source = .ok program ∧
        parse name defines' source = .ok { program with defines := defines' } ∧
        ∀ version, Glsl.write version { program with defines := defines' } =
          Glsl.write version program := by
  cases cut : tokenize source with
  | error fault =>
    -- Without words there are no tests either.
    have failed : ∀ defines, parse name defines source = .error (.lexical fault) := by
      intro defines
      rw [parse, cut]
      rfl
    exact .inl ⟨_, failed defines, failed defines'⟩
  | ok tokens =>
    have active := Grammar.activeItems_agree maxNesting (agree tokens cut)
    -- The same parts are declared, in drafts that differ in nothing but the define set.
    have start : (⟨.empty name defines', false⟩ : Draft) =
        Draft.under defines' ⟨.empty name defines, false⟩ := rfl
    simp only [Grammar.parse_eq_ofTokens cut, Grammar.ofTokens_eq, ← active, start,
      Draft.declareAll_under]
    cases Draft.declareAll ⟨.empty name defines, false⟩
        (activeItems defines.isDefined (Source.sourceItems maxNesting tokens).completed) with
    | error fault => exact .inl ⟨_, rfl, rfl⟩
    | ok draft =>
      cases (Source.sourceItems maxNesting tokens).rest with
      | error fault => exact .inl ⟨_, rfl, rfl⟩
      | ok rest => exact .inr ⟨draft.program, rfl, rfl, fun _ => rfl⟩

/-- A key that is tested counts even where its region is dropped, but neither its value nor other keys do. -/
theorem parse_presence_values :
    let source := "ifdef A { ifndef B { uniform int a; } } vertex {} fragment {}"
    let defines := Defines.ofList [("A", "1"), ("C", "")]
    let defines' := Defines.ofList [("A", "2"), ("D", "3")]
    defines ≠ defines' ∧ ∃ program, parse "presence" defines source = .ok program ∧
      parse "presence" defines' source = .ok { program with defines := defines' } ∧
      ∀ version, Glsl.write version { program with defines := defines' } =
        Glsl.write version program := by
  intro source defines defines'
  -- The source tests two keys, one of them within the region of the other.
  have agree : ∀ tokens, tokenize source = .ok tokens →
      ∀ key ∈ testedKeys tokens, defines.isDefined key = defines'.isDefined key := by
    intro tokens cut key tested
    have keys : (tokenize source).map testedKeys = .ok ["A", "B"] := by
      simp only [source]
      rfl
    rw [cut] at keys
    rw [Except.ok.inj keys] at tested
    revert key
    decide
  -- Under one of them there is a program, so that both have one.
  have succeeds : (parse "presence" defines source).isOk = true := by
    simp only [source, defines]
    rfl
  refine ⟨by decide, ?_⟩
  rcases parse_presence agree "presence" with ⟨error, failed, -⟩ | same
  · rw [failed] at succeeds
    cases succeeds
  · exact same

end Program

end Shading

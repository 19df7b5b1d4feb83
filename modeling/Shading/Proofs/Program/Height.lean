import Shading.Proofs.Glsl.RoundTrip
import Shading.Proofs.Grammar.Contents
import Shading.Proofs.Program.Syntax

/-! How high the trees of expressions are: the nesting bounds them, but for suffixes in a row. -/

namespace Shading

namespace Expr

mutual

/-- The number of steps from an expression down to its deepest part. -/
def height : Expr → Nat
  | .int _ | .float _ | .bool _ | .variable _ => 0
  | .unary _ operand => operand.height + 1
  | .binary _ left right => max left.height right.height + 1
  | .ternary condition yes no => max condition.height (max yes.height no.height) + 1
  | .call _ arguments => highest arguments + 1
  | .field object _ => object.height + 1
  | .index object position => max object.height position.height + 1

/-- The height of the highest of several expressions. -/
def highest : List Expr → Nat
  | [] => 0
  | e :: es => max e.height (highest es)

end

/-- The number of fields and indices in a row that an expression is made of. -/
def suffixes : Expr → Nat
  | .field object _ => object.suffixes + 1
  | .index object _ => object.suffixes + 1
  | _ => 0

/-- The highest of several expressions is as low as all of them are. -/
theorem highest_le {es : List Expr} {bound : Nat} :
    highest es ≤ bound ↔ ∀ e ∈ es, e.height ≤ bound := by
  -- Along the list, as the definition recurs.
  induction es with
  | nil => simp [highest]
  | cons e es ih => simp [highest, ih]

/-- No part is higher than the whole. -/
theorem Within.height_le {e whole : Expr} (within : e.Within whole) : e.height ≤ whole.height := by
  -- Every step outwards adds at least one level.
  induction within with
  | self => exact Nat.le_refl _
  | @argument _ arguments argument member _ ih =>
    have lower : argument.height ≤ highest arguments := highest_le.mp (Nat.le_refl _) _ member
    simp only [height]
    omega
  | _ =>
    simp only [height]
    omega

/-- No part of an expression has more than a number of suffixes in a row. -/
def RunsWithin (run : Nat) (e : Expr) : Prop :=
  ∀ part : Expr, part.Within e → part.suffixes ≤ run

end Expr

namespace Grammar

open Source Shading.Expr

variable {room run : Nat} {tokens rest : List Token}

/-- A bound on expressions nested within a number of levels. -/
def expressionBound (run room : Nat) : Nat :=
  room * (5 * room + run)

/-- One more level adds the operators that it may join and one row of suffixes. -/
theorem expressionBound_succ (run room : Nat) :
    expressionBound run (room + 1) = expressionBound run room + (10 * room + 5 + run) := by
  -- This is how the bound is made up, written as a difference.
  unfold expressionBound
  ring

/-- The tree of a phrase is as low as the number of levels and of suffixes in a row has it. -/
def ExprPhrase.Low (run room : Nat) : ExprPhrase → Prop
  | .expression e | .primary e => RunsWithin run e → e.height ≤ expressionBound run room
  -- Chains are bounded by the number of levels, on each of the levels on which operators bind.
  | .joined level count e => count ≤ room ∧ (RunsWithin run e →
      e.height ≤ expressionBound run room + 1 + run + room + count + room * (9 - level))
  | .operand e => RunsWithin run e → e.height ≤ expressionBound run room + 1 + run + room
  | .suffixed e => RunsWithin run e → e.height ≤ expressionBound run room + 1 + e.suffixes
  | .arguments es | .moreArguments es =>
    ∀ e ∈ es, RunsWithin run e → e.height ≤ expressionBound run room

/-- What arguments are bounded by bounds the highest of them. -/
theorem highest_le_of_low {callee : String} {es : List Expr} {bound : Nat}
    (low : ∀ e ∈ es, RunsWithin run e → e.height ≤ bound)
    (runs : RunsWithin run (.call callee es)) : highest es ≤ bound :=
  -- A run within an argument is one within the call.
  highest_le.mpr fun e member => low e member fun part within => runs part (.argument member within)

/-- Phrases are as low as the number of levels has it. -/
theorem ExprPhrase.Spans.low {phrase : ExprPhrase} (spans : phrase.Spans room tokens rest)
    (run : Nat) : phrase.Low run room := by
  -- The bound grows with the room, and suffixes in a row are bounded by the assumption on runs.
  induction spans with
  | plain _ ih =>
    intro runs
    have bound := ih.2 runs
    have short := ih.1
    rw [expressionBound_succ]
    omega
  -- The three parts of a choice are one level further in.
  | ternary _ _ _ condition yes no =>
    intro runs
    have boundCondition := condition.2 fun part within => runs part (.condition within)
    have short := condition.1
    have boundYes := yes fun part within => runs part (.yes within)
    have boundNo := no fun part within => runs part (.no within)
    rw [expressionBound_succ]
    simp only [height]
    omega
  | single _ ih => exact ⟨Nat.zero_le _, fun runs => Nat.le_trans (ih runs) (by omega)⟩
  | @tighter room level _ _ _ _ _ ih =>
    refine ⟨ih.1, fun runs => Nat.le_trans (ih.2 runs) ?_⟩
    have looser : room * (9 - (level + 1)) ≤ room * (9 - level) :=
      Nat.mul_le_mul_left room (by omega)
    omega
  | @join room _ _ op _ _ _ _ _ _ _ _ fits left right =>
    refine ⟨fits, fun runs => ?_⟩
    have boundLeft := left.2 fun part within => runs part (.left within)
    have boundRight := right.2 fun part within => runs part (.right within)
    -- The chain of the right operand is on the next level, to which the bound allows as many.
    have level : 9 - op.precedence = 9 - (op.precedence + 1) + 1 := by
      cases op <;> rfl
    have chain : room * (9 - op.precedence) = room * (9 - (op.precedence + 1)) + room := by
      rw [level, Nat.mul_succ]
    have short := right.1
    simp only [height]
    omega
  | signed _ ih =>
    intro runs
    have bound := ih fun part within => runs part (.operand within)
    rw [expressionBound_succ]
    simp only [height]
    omega
  | unsigned _ ih =>
    intro runs
    have bound := ih runs
    have few := runs _ .self
    omega
  | bare _ ih =>
    intro runs
    have bound := ih runs
    omega
  | construct _ ih =>
    intro runs
    have bound := highest_le_of_low ih runs
    simp only [height]
    omega
  | call _ _ _ ih =>
    intro runs
    have bound := highest_le_of_low ih runs
    simp only [height]
    omega
  -- A suffix is charged to the run that it lengthens.
  | field _ _ ih =>
    intro runs
    have bound := ih fun part within => runs part (.object within)
    simp only [height, Expr.suffixes]
    omega
  | index _ _ object position =>
    intro runs
    have boundObject := object fun part within => runs part (.indexed within)
    have boundPosition := position fun part within => runs part (.position within)
    simp only [height, Expr.suffixes]
    omega
  | int | float | bool | named => exact fun _ => Nat.zero_le _
  | parenthesised _ ih => exact ih
  | noArguments | endArguments => simp [Low]
  | firstArgument _ _ first more | nextArgument _ _ first more =>
    exact List.forall_mem_cons.mpr ⟨first, more⟩

/-- A bound on all expressions that are not nested too deeply. -/
def heightBound (run : Nat) : Nat :=
  expressionBound run maxNesting

/-- What was written within the levels of a source is as low as these have it. -/
theorem Written.low {e : Expr} (written : Written maxNesting e) (runs : RunsWithin run e) :
    e.height ≤ heightBound run := by
  -- A written expression fits within the levels of a source.
  obtain ⟨tokens, rest, -, spans⟩ := written
  exact spans.low run runs

/-- A sentence with a higher tree is nested too deeply. -/
theorem SentenceOf.tooDeep {items : List SourceItem} (sentence : SentenceOf items tokens)
    (valid : AllValid tokens) (high : ¬ ∀ i ∈ items, SourceItem.All
      (fun e => RunsWithin run e → e.height ≤ heightBound run) (fun _ => True) (fun _ => True) i) :
    IsTooDeep (sourceItems maxNesting tokens).rest := by
  obtain ⟨needed, line, spans⟩ := sentence
  have whole := sourceItems_complete (spans.mono (Nat.le_max_right maxNesting needed))
  -- With enough levels it is read whole, and with fewer the same or nested too deeply.
  rcases sourceItems_narrows (Nat.le_max_left maxNesting needed) tokens with same | tooDeep
  · -- Within the levels of a source, nothing would be higher.
    rw [← same] at whole
    have ends : EndsOnce tokens := Sentence.endsOnce ⟨items, needed, line, spans⟩
    obtain ⟨fits, -⟩ := sourceItems_sound ends (congrArg Outcome.rest whole)
    have written := fits.all valid (Nat.le_refl _)
    rw [whole] at written
    refine absurd (fun i member => ?_) high
    exact (written i member).imp (fun _ written runs => written.low runs) (fun _ _ => trivial)
      fun _ _ => trivial
  · exact tooDeep

end Grammar

namespace Program

open Grammar Glsl Cursor

/--
Trees of programs are at most as high as the longest row of suffixes in them has it.

Fields and indices in a row are the only parts that the nesting does not count.
A sentence with a higher tree is refused for its nesting, unless a declaration before is at fault.
-/
theorem height_le_of_parse (name source : String) (defines : Defines) (run : Nat) :
    (∀ program, parse name defines source = .ok program →
      (∀ part, program.Mentions part → part.suffixes ≤ run) →
      ∀ e, program.Mentions e → e.height ≤ heightBound run) ∧
    ∀ tokens items, tokenize source = .ok tokens → SentenceOf items tokens →
      (¬ ∀ i ∈ items, SourceItem.All
        (fun e => e.RunsWithin run → e.height ≤ heightBound run) (fun _ => True) (fun _ => True) i) →
      (∃ line, parse name defines source = .error (.grammar ⟨line, .tooDeep⟩)) ∨
        ∃ fault, parse name defines source = .error (.declaration fault) := by
  -- Programs are bounded by the grammar, and sentences beyond the bound are too deep for it.
  constructor
  · rintro program parsed few e ⟨stage, body, s, whole, found, member, holds, within⟩
    have written : Written maxNesting whole :=
      holds.all ((all_of_parse parsed).stages stage body found s member)
    have runs : whole.RunsWithin run :=
      fun part inside => few part ⟨stage, body, s, whole, found, member, holds, inside⟩
    exact Nat.le_trans within.height_le (written.low runs)
  · -- The reading runs out of levels within the sentence, if no declaration stops it before.
    intro tokens items cut sentence high
    obtain ⟨line, tooDeep⟩ := sentence.tooDeep (tokenize_valid cut) high
    have found : syntaxFault? source = some (.grammar ⟨line, .tooDeep⟩) := by
      simp [syntaxFault?, cut, tooDeep]
    rcases parse_cases name defines source with declared | ⟨fault, found', same⟩ | ⟨none, -⟩
    · exact .inr declared
    · rw [found] at found'
      cases found'
      exact .inl ⟨line, same⟩
    · rw [found] at none
      cases none

/-- An operator before a field is as low as one suffix in a row has it. -/
theorem height_le_of_parse_field :
    let e : Expr := .unary .negate (.field (.variable "a") "f")
    let program := { Program.empty "low" .empty with
      vertex := some [.assign (.variable "x") .set e] }
    parse "low" .empty "vertex \x7b x = -a.f; \x7d" = .ok program ∧
      (∀ part, program.Mentions part → part.suffixes ≤ 1) ∧ program.Mentions e ∧
      e.height ≤ heightBound 1 := by
  intro e program
  have parsed : parse "low" .empty "vertex \x7b x = -a.f; \x7d" = .ok program := rfl
  -- There is one expression on either side of the assignment, with one field in all.
  have few : ∀ part, program.Mentions part → part.suffixes ≤ 1 := by
    rintro part ⟨stage, body, s, whole, found, member, holds, within⟩
    cases stage with
    | fragment => cases found
    | vertex =>
      obtain rfl := Option.some.inj found
      obtain rfl := List.mem_singleton.mp member
      cases holds with
      | target =>
        cases within
        decide
      | value =>
        change part.Within (.unary .negate (.field (.variable "a") "f")) at within
        cases within with
        | self => decide
        | operand within =>
          cases within with
          | self => decide
          | object within =>
            cases within
            decide
  -- The expression is the value of the assignment.
  have mentioned : program.Mentions e := ⟨.vertex, _, _, _, rfl, .head _, .value, .self⟩
  exact ⟨parsed, few, mentioned, (height_le_of_parse _ _ _ 1).1 program parsed few e mentioned⟩

/-- A variable with a number of fields in a row. -/
def fieldRow : Nat → Expr
  | 0 => .variable "a"
  | n + 1 => .field (fieldRow n) "f"

/-- A row of fields is as high as it is long. -/
theorem height_fieldRow (n : Nat) : (fieldRow n).height = n := by
  -- Each field is one more level of the tree.
  induction n with
  | zero => rfl
  | succ n ih => simp [fieldRow, Expr.height, ih]

/-- Every row of fields is an expression within a single level. -/
theorem fieldRow_reads (n : Nat) : ∃ text words,
    (∀ after, EndsRun after → Cuts 1 (text ++ after) words after) ∧
      ∀ rest, (ExprPhrase.suffixed (fieldRow n)).Spans 0 (words ++ rest) rest := by
  -- Both names are of one letter.
  have field : IsName "f" := ⟨⟨_, _, rfl, rfl⟩, List.all_eq_true.mp rfl, by decide, by decide⟩
  -- Each field is read behind the others, as a suffix that takes no room.
  induction n with
  | zero =>
    have isName : IsName "a" := ⟨⟨_, _, rfl, rfl⟩, List.all_eq_true.mp rfl, by decide, by decide⟩
    exact ⟨"a".toList, [word "a" 1], fun after ends => .single (next_name isName ends) rfl,
      fun rest => .bare (.named rfl rfl)⟩
  | succ n ih =>
    obtain ⟨text, words, cuts, spans⟩ := ih
    refine ⟨text ++ ".f".toList, words ++ [sign .dot 1, word "f" 1], ?_, ?_⟩
    · intro after ends
      have readField : Cuts 1 ("f".toList ++ after) [word "f" 1] after :=
        .single (next_name field ends) rfl
      have readDot := Cuts.sign .dot (.inr (.inr (field.endsSymbol after))) readField
      simpa [Symbol.spelling] using (cuts _ (endsRun_sign .dot _)).append readDot
    · intro rest
      simpa [fieldRow] using ExprPhrase.Spans.field (spans (sign .dot 1 :: word "f" 1 :: rest)) rfl

/-- Without regard to suffixes, no bound holds of all trees of all programs. -/
theorem height_unbounded : ¬ ∃ bound, ∀ name source defines program e,
    parse name defines source = .ok program → program.Mentions e → e.height ≤ bound := by
  -- The row is one longer than the bound that is assumed.
  rintro ⟨bound, bounded⟩
  obtain ⟨text, words, cuts, spans⟩ := fieldRow_reads (bound + 1)
  have spansWhole : ∀ rest,
      (ExprPhrase.expression (fieldRow (bound + 1))).Spans 1 (words ++ rest) rest :=
    fun rest => .plain (ExprPhrase.Spans.looser (by decide) (.single (.unsigned (spans rest))))
  have parsed := parse_stage_eq_ok (fun after ends => cuts after ends.run) spansWhole (by decide)
    "row" .empty
  have high := bounded _ _ _ _ (fieldRow (bound + 1)) parsed
    ⟨.vertex, _, _, _, rfl, .head _, .value, .self⟩
  -- A row is as high as it is long, and so higher than the bound.
  rw [height_fieldRow] at high
  omega

end Program

end Shading

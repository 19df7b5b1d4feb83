import Shading.Proofs.Grammar.Validity
import Shading.Proofs.Language.Contents

/-! All that programs hold was written: expressions within the nesting, and free names. -/

namespace Shading.Grammar

open Source

variable {room limit : Nat} {tokens rest : List Token}

/-- An expression that valid words stand for within a number of levels. -/
def Written (limit : Nat) (e : Expr) : Prop :=
  ∃ tokens rest, AllValid tokens ∧ (ExprPhrase.expression e).Spans limit tokens rest

/-- A declaration whose name is a name that has no other use. -/
structure IsNamed (d : Declaration) : Prop where
  isName : IsName d.name
  free : isReserved d.name = false

/-- An expression that values are assigned to can be assigned to. -/
def IsAssigned (target : Expr) : Prop :=
  target.isAssignable = true

/-- An expression that fits is written within more levels as well. -/
theorem ExprPhrase.Spans.written {e : Expr} (spans : (expression e).Spans room tokens rest)
    (valid : AllValid tokens) (enough : room ≤ limit) : Written limit e :=
  -- The words of the expression are the ones that it is written with.
  ⟨tokens, rest, valid, spans.mono enough⟩

/-- What was written is valid. -/
theorem Written.valid {e : Expr} (written : Written limit e) : e.Valid := by
  -- The words that it is written with are valid words.
  obtain ⟨tokens, rest, valid, spans⟩ := written
  exact spans.valid valid

/-- The statements of a phrase hold what was written within a number of levels. -/
def BodyPhrase.All (limit : Nat) : BodyPhrase → Prop
  | .statement s | .selection s | .conditional s => s.All (Written limit) IsAssigned IsNamed
  | .block ss | .blockEnd ss | .region ss | .alternative ss =>
    ∀ s ∈ ss, SourceStatement.All (Written limit) IsAssigned IsNamed s

/-- Statements hold what was written. -/
theorem BodyPhrase.Spans.all {phrase : BodyPhrase} (spans : phrase.Spans room tokens rest)
    (valid : AllValid tokens) (enough : room ≤ limit) : phrase.All limit := by
  -- Each part is among the words that those before it leave, and all words that are left are valid.
  induction spans with
  | declare free =>
    simp only [allValid_cons] at valid
    exact .declare ⟨valid.2.1, free⟩
  | initialise free initial =>
    simp only [allValid_cons] at valid
    exact .initialise ⟨valid.2.1, free⟩ (initial.written valid.2.2.2 enough)
  | assign target assignable value =>
    have afterTarget := (allValid_cons.mp (target.remains.allValid valid)).2
    exact .assign assignable (target.written valid enough) (value.written afterTarget enough)
  | evaluate e => exact .evaluate (e.written valid enough)
  | discard => exact .discard
  | leave => exact .leave
  | selected _ ih | tested _ ih => exact ih valid enough
  | ifThen condition _ yes =>
    simp only [allValid_cons] at valid
    have afterCondition := (allValid_cons.mp (condition.remains.allValid valid.2.2)).2
    exact .ifThen (condition.written valid.2.2 enough) (yes afterCondition enough)
  | ifThenElse condition spansYes _ yes no =>
    simp only [allValid_cons] at valid
    have afterCondition := (allValid_cons.mp (condition.remains.allValid valid.2.2)).2
    have afterElse := (allValid_cons.mp (spansYes.remains.allValid afterCondition)).2
    exact .ifThenElse (condition.written valid.2.2 enough) (yes afterCondition enough)
      (no afterElse enough)
  | ifElseIf condition spansYes _ yes no =>
    simp only [allValid_cons] at valid
    have afterCondition := (allValid_cons.mp (condition.remains.allValid valid.2.2)).2
    have afterElse := (allValid_cons.mp (spansYes.remains.allValid afterCondition)).2
    exact .ifThenElse (condition.written valid.2.2 enough) (yes afterCondition enough)
      (List.forall_mem_singleton.mpr (no afterElse (Nat.le_of_succ_le enough)))
  -- The second region is read from the words that the first one leaves.
  | conditional _ spansYes _ yes no =>
    simp only [allValid_cons] at valid
    exact .choice (yes valid.2.2.2 enough)
      (no (spansYes.remains.allValid valid.2.2.2) enough)
  | block _ ih => exact ih (allValid_cons.mp valid).2 (Nat.le_of_succ_le enough)
  | endBlock | endRegion | without => simp [All]
  | nextInBlock spansFirst _ first more =>
    exact List.forall_mem_cons.mpr ⟨first valid enough,
      more (spansFirst.remains.allValid valid) enough⟩
  -- The parts of a region are one level further in than the region.
  | nextInRegion spansFirst _ first more =>
    exact List.forall_mem_cons.mpr ⟨first valid (Nat.le_of_succ_le enough),
      more (spansFirst.remains.allValid valid) enough⟩
  -- The `else` and the brace are passed in front of the region.
  | otherwise _ ih =>
    simp only [allValid_cons] at valid
    exact ih valid.2.2 enough
  | chained _ ih =>
    exact List.forall_mem_singleton.mpr
      (ih (allValid_cons.mp valid).2 (Nat.le_of_succ_le enough))

/-- The top-level parts of a phrase hold what was written within a number of levels. -/
def ItemPhrase.All (limit : Nat) : ItemPhrase → Prop
  | .item i | .conditional i => SourceItem.All (Written limit) IsAssigned IsNamed i
  | .region is | .alternative is | .items is =>
    ∀ i ∈ is, SourceItem.All (Written limit) IsAssigned IsNamed i

/-- Top-level parts hold what was written. -/
theorem ItemPhrase.Spans.all {phrase : ItemPhrase} (spans : phrase.Spans room tokens rest)
    (valid : AllValid tokens) (enough : room ≤ limit) : phrase.All limit := by
  -- As in a body, parts are among the words that are left; bodies themselves were dealt with there.
  induction spans with
  | plain plain =>
    cases plain with
    | declaration free =>
      simp only [allValid_cons] at valid
      exact .always ⟨valid.2.2.1, free⟩
    | layout => exact .always trivial
    | stage body => exact .always (body.all (allValid_cons.mp valid).2 enough)
  | tested _ ih => exact ih valid enough
  | conditional _ spansYes _ yes no =>
    simp only [allValid_cons] at valid
    exact .choice (yes valid.2.2.2 enough) (no (spansYes.remains.allValid valid.2.2.2) enough)
  | endRegion | without | ended => simp [All]
  | nextInRegion spansFirst _ first more =>
    exact List.forall_mem_cons.mpr ⟨first valid (Nat.le_of_succ_le enough),
      more (spansFirst.remains.allValid valid) enough⟩
  -- The parts behind the first one are read from the words that it leaves.
  | next spansFirst _ first more =>
    exact List.forall_mem_cons.mpr ⟨first valid enough,
      more (spansFirst.remains.allValid valid) enough⟩
  -- An `else` adds nothing of its own.
  | otherwise _ ih =>
    simp only [allValid_cons] at valid
    exact ih valid.2.2 enough
  | chained _ ih =>
    exact List.forall_mem_singleton.mpr
      (ih (allValid_cons.mp valid).2 (Nat.le_of_succ_le enough))

/-- All that a program holds was written in its source. -/
theorem all_of_parse {name source : String} {defines : Defines} {program : Program}
    (parsed : Program.parse name defines source = .ok program) :
    program.All (Written maxNesting) IsAssigned IsNamed := by
  -- The parts that were read hold what was written, and declaring adds them to an empty program.
  obtain ⟨tokens, draft, rest, cut, whole, declared, rfl⟩ := parse_eq_ok parsed
  obtain ⟨spans, -⟩ := sourceItems_sound (tokenize_endsOnce cut) whole
  have written := spans.all (tokenize_valid cut) (Nat.le_refl maxNesting)
  exact Draft.declareAll_all declared (.empty name defines)
    (activeItems_all written defines.isDefined)

/-- Every expression in a program that was read from a source is valid. -/
theorem valid_of_parse {name source : String} {defines : Defines} {program : Program}
    (parsed : Program.parse name defines source = .ok program) {e : Expr}
    (mentioned : program.Mentions e) : e.Valid := by
  -- What a program mentions is part of an expression that was written.
  obtain ⟨whole, written, within⟩ := (all_of_parse parsed).mentions mentioned
  exact within.valid written.valid

end Shading.Grammar

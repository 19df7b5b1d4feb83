import Shading.Proofs.Grammar.Unit

/-! Statements and top-level parts as sources without conditionals hold them. -/

namespace Shading

mutual

/-- A statement as it stands in a source. -/
def Statement.toSource : Statement → SourceStatement
  | .declare declaration initial => .declare declaration initial
  | .assign target op value => .assign target op value
  | .evaluate expression => .evaluate expression
  | .ifThen condition yes => .ifThen condition (toSourceAll yes)
  | .ifThenElse condition yes no => .ifThenElse condition (toSourceAll yes) (toSourceAll no)
  | .discard => .discard
  | .leave => .leave

/-- A block as it stands in a source. -/
def toSourceAll : List Statement → List SourceStatement
  | [] => []
  | statement :: rest => statement.toSource :: toSourceAll rest

end

/-- A top-level part as it stands in a source. -/
def Item.toSource (item : Item (List Statement)) : Item (List SourceStatement) :=
  item.mapBody toSourceAll

/-- Statements of two blocks stand one after the other. -/
theorem toSourceAll_append (ss others : List Statement) :
    toSourceAll (ss ++ others) = toSourceAll ss ++ toSourceAll others := by
  -- Along the first block.
  induction ss with
  | nil => rfl
  | cons s ss ih => simp [toSourceAll, ih]

variable (isDefined : String → Bool)

mutual

/-- Without a conditional, a statement stands for itself under all defines. -/
theorem resolve_toSource (s : Statement) : s.toSource.resolve isDefined = [s] := by
  -- Blocks within are dealt with in turn; no other statement has one.
  cases s with
  | ifThen condition yes =>
    rw [Statement.toSource, SourceStatement.resolve, resolveAll_toSourceAll yes]
  | ifThenElse condition yes no =>
    rw [Statement.toSource, SourceStatement.resolve, resolveAll_toSourceAll yes,
      resolveAll_toSourceAll no]
  | _ => rfl

/-- Without conditionals, a block stands for itself under all defines. -/
theorem resolveAll_toSourceAll (ss : List Statement) :
    resolveAll isDefined (toSourceAll ss) = ss := by
  -- Statement by statement, each of which stands for itself.
  cases ss with
  | nil => rfl
  | cons s ss => rw [toSourceAll, resolveAll, resolve_toSource s, resolveAll_toSourceAll ss]; rfl

end

/-- A statement that stands for one is a block of that one. -/
theorem resolveAll_single {s : SourceStatement} {t : Statement}
    (resolved : s.resolve isDefined = [t]) : resolveAll isDefined [s] = [t] := by
  -- What the block stands for is what its one statement stands for.
  simp [resolveAll, resolved]

/-- Without conditionals, all top-level parts count under all defines. -/
theorem activeItems_toSource (items : List (Item (List Statement))) :
    activeItems isDefined (items.map fun item => .always item.toSource) = items := by
  -- Part by part; a body is the only thing within one that is selected.
  induction items with
  | nil => rfl
  | cons item items ih =>
    have same : item.toSource.mapBody (resolveAll isDefined) = item := by
      cases item <;> simp [Item.toSource, Item.mapBody, resolveAll_toSourceAll]
    unfold activeItems at ih ⊢
    simp [selectAll, Guarded.select, same, ih]

/-- The parts that count are those of the first sources and then those of the others. -/
theorem selectAll_append {α : Type} (parts others : List (Guarded α)) :
    selectAll isDefined (parts ++ others) =
      selectAll isDefined parts ++ selectAll isDefined others := by
  -- Along the first parts.
  induction parts with
  | nil => rfl
  | cons part parts ih => simp [selectAll, ih]

/-- The active parts are those of the first sources and then those of the others. -/
theorem activeItems_append (items others : List SourceItem) :
    activeItems isDefined (items ++ others) =
      activeItems isDefined items ++ activeItems isDefined others := by
  -- Parts are selected first, and each of them is resolved on its own.
  simp [activeItems, selectAll_append]

/-- The active parts of a conditional are those of the branch that is taken. -/
theorem activeItems_choice (guard : Guard) (yes no : List SourceItem) :
    activeItems isDefined [.choice guard yes no] =
      if guard.holds isDefined then activeItems isDefined yes else activeItems isDefined no := by
  -- The guard decides, whatever the two branches hold.
  cases holds : guard.holds isDefined <;>
    simp [activeItems, selectAll, Guarded.select, holds]

/-- The active parts of a list are those of its first part and then those of the others. -/
theorem activeItems_cons (item : SourceItem) (items : List SourceItem) :
    activeItems isDefined (item :: items) =
      activeItems isDefined [item] ++ activeItems isDefined items :=
  -- The first part is a list by itself.
  activeItems_append isDefined [item] items

namespace Grammar

/-- The words begin with phrases, one after the other. -/
inductive Sequence {α : Type} (spans : α → List Token → List Token → Prop) :
    List α → List Token → List Token → Prop
  | none {rest} : Sequence spans [] rest rest
  | next {first more tokens between rest} :
    spans first tokens between →
    Sequence spans more between rest →
    Sequence spans (first :: more) tokens rest

namespace Sequence

variable {α : Type} {spans : α → List Token → List Token → Prop} {tokens between rest : List Token}

/-- A single phrase is a sequence. -/
theorem single {first : α} (span : spans first tokens rest) : Sequence spans [first] tokens rest :=
  -- Nothing follows the one phrase.
  .next span .none

/-- One sequence may follow another. -/
theorem append {firsts more : List α} (before : Sequence spans firsts tokens between)
    (after : Sequence spans more between rest) : Sequence spans (firsts ++ more) tokens rest := by
  -- Along the first sequence.
  induction before with
  | none => exact after
  | next span _ ih => exact .next span (ih after)

/-- Phrases that are phrases in a wider sense too are a sequence of those. -/
theorem imp {others : α → List Token → List Token → Prop} {firsts : List α}
    (implies : ∀ first tokens rest, spans first tokens rest → others first tokens rest)
    (sequence : Sequence spans firsts tokens rest) : Sequence others firsts tokens rest := by
  -- Along the sequence.
  induction sequence with
  | none => exact .none
  | next span _ ih => exact .next (implies _ _ _ span) ih

/-- Statements stand before the end of a block. -/
theorem blockEnd {room : Nat} {ss more : List SourceStatement}
    (statements : Sequence (fun s => (BodyPhrase.statement s).Spans room) ss tokens between)
    (ending : (BodyPhrase.blockEnd more).Spans room between rest) :
    (BodyPhrase.blockEnd (ss ++ more)).Spans room tokens rest := by
  -- Along the statements, from the first one inwards.
  induction statements with
  | none => exact ending
  | next span _ ih => exact .nextInBlock span (ih ending)

end Sequence

end Grammar

end Shading

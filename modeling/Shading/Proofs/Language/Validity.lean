import Shading.Program.Basic
import Shading.Proofs.Lexer.Words

/-! Trees that are made of what the words of sources can hold, and what occurs in them. -/

namespace Shading

/-- The keyword of a type is a name. -/
theorem isName_keyword (type : DataType) : IsName type.keyword := by
  -- There are few types, and each keyword starts with a small letter.
  cases type <;> exact ⟨⟨_, _, rfl, rfl⟩, List.all_eq_true.mp rfl, by decide, by decide⟩

/-- A keyword is a name. -/
theorem isName_spelling (keyword : Keyword) : IsName keyword.spelling := by
  -- There are few keywords, and none of them is a truth value.
  cases keyword <;> exact ⟨⟨_, _, rfl, rfl⟩, List.all_eq_true.mp rfl, by decide, by decide⟩

/-- An expression that is part of another one or the same. -/
inductive Expr.Within (e : Expr) : Expr → Prop
  | self : Within e e
  | operand {op operand} : Within e operand → Within e (.unary op operand)
  | left {op left right} : Within e left → Within e (.binary op left right)
  | right {op left right} : Within e right → Within e (.binary op left right)
  | condition {condition yes no} : Within e condition → Within e (.ternary condition yes no)
  | yes {condition yes no} : Within e yes → Within e (.ternary condition yes no)
  | no {condition yes no} : Within e no → Within e (.ternary condition yes no)
  | argument {callee arguments argument} :
    argument ∈ arguments → Within e argument → Within e (.call callee arguments)
  | object {object name} : Within e object → Within e (.field object name)
  | indexed {object position} : Within e object → Within e (.index object position)
  | position {object position} : Within e position → Within e (.index object position)

/-- An expression whose names are names and whose numbers are within their bounds. -/
inductive Expr.Valid : Expr → Prop
  | int {value : Nat} : value ≤ Cursor.largestInteger → Valid (.int value)
  | float {value} : value.isFinite = true → value.isNegative = false → Valid (.float value)
  | bool {value} : Valid (.bool value)
  | named {name} :
    IsName name → isReserved name = false → DataType.ofKeyword? name = none →
    Valid (.variable name)
  | unary {op operand} : Valid operand → Valid (.unary op operand)
  | binary {op left right} : Valid left → Valid right → Valid (.binary op left right)
  | ternary {condition yes no} :
    Valid condition → Valid yes → Valid no → Valid (.ternary condition yes no)
  | construct {type : DataType} {arguments} :
    (∀ argument ∈ arguments, Valid argument) → Valid (.call type.keyword arguments)
  | call {callee arguments} :
    IsName callee → isReserved callee = false → DataType.ofKeyword? callee = none →
    (∀ argument ∈ arguments, Valid argument) → Valid (.call callee arguments)
  | field {object name} :
    Valid object → IsName name → isReserved name = false → Valid (.field object name)
  | index {object position} : Valid object → Valid position → Valid (.index object position)

/-- An expression whose names are all of some kind, whatever its numbers are. -/
inductive Expr.Named (good : String → Prop) : Expr → Prop
  | int {value} : Named good (.int value)
  | float {value} : Named good (.float value)
  | bool {value} : Named good (.bool value)
  | named {name} : good name → Named good (.variable name)
  | unary {op operand} : Named good operand → Named good (.unary op operand)
  | binary {op left right} :
    Named good left → Named good right → Named good (.binary op left right)
  | ternary {condition yes no} :
    Named good condition → Named good yes → Named good no → Named good (.ternary condition yes no)
  | call {callee arguments} :
    good callee → (∀ argument ∈ arguments, Named good argument) → Named good (.call callee arguments)
  | field {object name} : Named good object → good name → Named good (.field object name)
  | index {object position} :
    Named good object → Named good position → Named good (.index object position)

/-- The names of a valid expression are names. -/
theorem Expr.Valid.names {e : Expr} (valid : e.Valid) {good : String → Prop}
    (wider : ∀ name, IsName name → good name) : e.Named good := by
  -- What is constructed is called by the keyword of its type, which is a name as well.
  induction valid with
  | int => exact .int
  | float => exact .float
  | bool => exact .bool
  | named isName => exact .named (wider _ isName)
  | unary _ operand => exact .unary operand
  | binary _ _ left right => exact .binary left right
  | ternary _ _ _ condition yes no => exact .ternary condition yes no
  | construct _ arguments => exact .call (wider _ (isName_keyword _)) arguments
  | call isName _ _ _ arguments => exact .call (wider _ isName) arguments
  | field _ isName _ object => exact .field object (wider _ isName)
  | index _ _ object position => exact .index object position

/-- All parts of a valid expression are valid. -/
theorem Expr.Within.valid {e whole : Expr} (within : e.Within whole) (valid : whole.Valid) :
    e.Valid := by
  -- From the whole inwards: a valid expression is made of valid ones.
  induction within with
  | self => exact valid
  -- The form of the whole is known from the way into it.
  | operand _ ih =>
    cases valid with
    | unary operand => exact ih operand
  | left _ ih =>
    cases valid with
    | binary left _ => exact ih left
  | right _ ih =>
    cases valid with
    | binary _ right => exact ih right
  | condition _ ih =>
    cases valid with
    | ternary condition _ _ => exact ih condition
  | yes _ ih =>
    cases valid with
    | ternary _ yes _ => exact ih yes
  | no _ ih =>
    cases valid with
    | ternary _ _ no => exact ih no
  -- Constructions and calls both have arguments.
  | argument member _ ih =>
    cases valid with
    | construct arguments => exact ih (arguments _ member)
    | call _ _ _ arguments => exact ih (arguments _ member)
  | object _ ih =>
    cases valid with
    | field object _ _ => exact ih object
  | indexed _ ih =>
    cases valid with
    | index object _ => exact ih object
  | position _ ih =>
    cases valid with
    | index _ position => exact ih position

/-- An expression that a statement holds, in itself or in the statements nested in it. -/
inductive Statement.Holds (e : Expr) : Statement → Prop
  | initial {declaration} : Holds e (.declare declaration (some e))
  | target {op value} : Holds e (.assign e op value)
  | value {target op} : Holds e (.assign target op e)
  | evaluated : Holds e (.evaluate e)
  | condition {yes} : Holds e (.ifThen e yes)
  | inThen {condition yes s} : s ∈ yes → Holds e s → Holds e (.ifThen condition yes)
  | chosen {yes no} : Holds e (.ifThenElse e yes no)
  | inYes {condition yes no s} : s ∈ yes → Holds e s → Holds e (.ifThenElse condition yes no)
  | inNo {condition yes no s} : s ∈ no → Holds e s → Holds e (.ifThenElse condition yes no)

/-- An expression occurs in a program when it is part of what a statement of a stage holds. -/
def Program.Mentions (program : Program) (e : Expr) : Prop :=
  ∃ stage body s whole, program.stage? stage = some body ∧ s ∈ body ∧ s.Holds whole ∧ e.Within whole

/-- The statements of a block are those that its statements stand for. -/
theorem mem_resolveAll {isDefined : String → Bool} {ss : List SourceStatement} {t : Statement} :
    t ∈ resolveAll isDefined ss ↔ ∃ s ∈ ss, t ∈ s.resolve isDefined := by
  -- Along the block, as the definition recurs.
  induction ss with
  | nil => simp [resolveAll]
  | cons s ss ih => simp [resolveAll, ih]

/-- The parts of a list that count are those of its parts. -/
theorem mem_selectAll {α : Type} {isDefined : String → Bool} {parts : List (Guarded α)} {value : α} :
    value ∈ selectAll isDefined parts ↔ ∃ part ∈ parts, value ∈ part.select isDefined := by
  -- Along the list, as the definition recurs.
  induction parts with
  | nil => simp [selectAll]
  | cons part parts ih => simp [selectAll, ih]

end Shading

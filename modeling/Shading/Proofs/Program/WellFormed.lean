import Shading.Proofs.Grammar.Contents
import Shading.Proofs.Language.Preorder

/-! Programs that are read are well formed: in their names, their targets and their numbers. -/

namespace Shading

/-- What a name is used for: it is declared outside of stages or in a body, or an expression has it. -/
inductive NameUse
  | declared | inBody | variable | called | field
deriving DecidableEq

namespace Program

/-- A program uses a name, in a declaration or at any depth of an expression. -/
inductive Uses (program : Program) : NameUse → String → Prop
  | uniform {d} : d ∈ program.uniforms → Uses program .declared d.name
  | varying {d} : d ∈ program.varyings → Uses program .declared d.name
  | output {d} : d ∈ program.outputs → Uses program .declared d.name
  | inBody {d initial} : program.Contains (.declare d initial) → Uses program .inBody d.name
  | variable {name} : program.Mentions (.variable name) → Uses program .variable name
  | called {callee arguments} :
    program.Mentions (.call callee arguments) → Uses program .called callee
  | field {object name} : program.Mentions (.field object name) → Uses program .field name

/-- What holds of every program that is read, whatever its source and the defines. -/
structure WellFormed (program : Program) : Prop where
  /-- Every name is written as one and has no meaning of its own. -/
  names : ∀ use word, program.Uses use word → IsName word ∧ isReserved word = false
  /-- A type is called, or its keyword names something that is declared or a field. -/
  types : ∀ use (type : DataType), program.Uses use type.keyword → use ≠ .variable
  targets : ∀ target op value, program.Contains (.assign target op value) →
    (∃ name, target = .variable name) ∨ (∃ object name, target = .field object name) ∨
      ∃ object position, target = .index object position
  integers : ∀ value, program.Mentions (.int value) → 0 ≤ value
  floats : ∀ value, program.Mentions (.float value) →
    value.isFinite = true ∧ value.isNegative = false

variable {program : Program} {name source : String} {defines : Defines}

/-- Every name of a program that was read is a name that has no other use. -/
theorem isName_of_uses (parsed : parse name defines source = .ok program) {use : NameUse}
    {word : String} (used : program.Uses use word) : IsName word ∧ isReserved word = false := by
  have all := Grammar.all_of_parse parsed
  -- Names that are declared were checked there, and those in expressions where they were read.
  cases used with
  | uniform member =>
    obtain ⟨isName, free⟩ := all.uniforms _ member
    exact ⟨isName, free⟩
  | varying member =>
    obtain ⟨isName, free⟩ := all.varyings _ member
    exact ⟨isName, free⟩
  | output member =>
    obtain ⟨isName, free⟩ := all.outputs _ member
    exact ⟨isName, free⟩
  | inBody contained =>
    cases all.contains contained with
    | declare named | initialise named _ => exact ⟨named.isName, named.free⟩
  | «variable» mentioned =>
    cases Grammar.valid_of_parse parsed mentioned with
    | named isName free _ => exact ⟨isName, free⟩
  | called mentioned =>
    cases Grammar.valid_of_parse parsed mentioned with
    -- The keyword of a type is called as well, and it is not reserved.
    | construct _ => exact ⟨isName_keyword _, isReserved_keyword _⟩
    | call isName free _ _ => exact ⟨isName, free⟩
  | field mentioned =>
    cases Grammar.valid_of_parse parsed mentioned with
    | field _ isName free => exact ⟨isName, free⟩

/--
Programs that are read are well formed, under whichever defines they are.

Every name is a name without a meaning of its own, and no variable is named like a type.
Only variables, fields and indices are assigned to.
No integer is negative, and floats are finite and have no sign.
-/
theorem wellFormed_of_parse (parsed : parse name defines source = .ok program) :
    program.WellFormed where
  names _ _ used := isName_of_uses parsed used
  types := by
    rintro _ type used rfl
    -- A variable was read where the keyword of a type is refused.
    cases used with
    | «variable» mentioned =>
      cases Grammar.valid_of_parse parsed mentioned with
      | named _ _ untyped => simp at untyped
  -- What stands on the left of an assignment was tested when it was read.
  targets := by
    intro target op value contained
    cases (Grammar.all_of_parse parsed).contains contained with
    | assign assignable _ _ =>
      cases target with
      | «variable» name => exact .inl ⟨name, rfl⟩
      | field object name => exact .inr (.inl ⟨object, name, rfl⟩)
      | index object position => exact .inr (.inr ⟨object, position, rfl⟩)
      | _ => cases assignable
  -- Literals are read from digits, so that they have no sign.
  integers := by
    intro value mentioned
    generalize same : Expr.int value = e at mentioned
    cases Grammar.valid_of_parse parsed mentioned with
    | int =>
      cases same
      exact Int.natCast_nonneg _
    | _ => cases same
  floats := by
    intro value mentioned
    cases Grammar.valid_of_parse parsed mentioned with
    | float finite unsigned => exact ⟨finite, unsigned⟩

/-- A constructed vector that is taken apart again is assigned to a field of an indexed value. -/
theorem wellFormed_of_parse_fields :
    ∃ program, parse "fields" .empty
        "uniform vec2 a; fragment \x7b float x = 2; if (x < 3) \x7b b[0].y = vec2(x, -a.x).x; \x7d \x7d" =
          .ok program ∧
      program.Uses .called "vec2" ∧ program.WellFormed := by
  have parsed : parse "fields" .empty
      "uniform vec2 a; fragment \x7b float x = 2; if (x < 3) \x7b b[0].y = vec2(x, -a.x).x; \x7d \x7d" =
        .ok _ := rfl
  refine ⟨_, parsed, ?_, wellFormed_of_parse parsed⟩
  -- The call is the object of the field that is assigned, in the block of the second statement.
  exact .called ⟨.fragment, _, _, _, rfl, .tail _ (.head _), .inThen (.head _) .value, .object .self⟩

/-- The keyword of a type names a field as well, where it is neither called nor declared. -/
theorem field_named_as_type :
    ¬ ∀ name source defines program, parse name defines source = .ok program →
      ∀ use (type : DataType), program.Uses use type.keyword →
        use = .called ∨ use = .declared ∨ use = .inBody := by
  -- The name of a type behind a point is one counterexample.
  intro only
  have parsed : parse "field" .empty "vertex \x7b x = a.float; \x7d fragment \x7b \x7d" = .ok _ := rfl
  have used := only _ _ _ _ parsed .field .float
    (.field ⟨.vertex, _, _, _, rfl, .head _, .value, .self⟩)
  simp at used

end Program

end Shading

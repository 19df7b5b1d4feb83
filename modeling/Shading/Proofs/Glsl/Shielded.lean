import Shading.Proofs.Glsl.RoundTrip

/-! Fields kept apart from digits in front of their points, so that all expressions read back. -/

namespace Shading

namespace Expr

mutual

/-- An expression whose fields are taken of the first element of what they were taken of. -/
def shielded : Expr → Expr
  | .unary op operand => .unary op operand.shielded
  | .binary op left right => .binary op left.shielded right.shielded
  | .ternary condition yes no => .ternary condition.shielded yes.shielded no.shielded
  | .call name arguments => .call name (shieldedAll arguments)
  | .field object name => .field (.index object.shielded (.int 0)) name
  | .index object position => .index object.shielded position.shielded
  | literal => literal

/-- Expressions whose fields are taken of the first element of what they were taken of. -/
def shieldedAll : List Expr → List Expr
  | [] => []
  | e :: es => e.shielded :: shieldedAll es

end

mutual

/-- An expression whose fields are taken of what they were taken the first element of. -/
def unshielded : Expr → Expr
  | .unary op operand => .unary op operand.unshielded
  | .binary op left right => .binary op left.unshielded right.unshielded
  | .ternary condition yes no => .ternary condition.unshielded yes.unshielded no.unshielded
  | .call name arguments => .call name (unshieldedAll arguments)
  | .field (.index object _) name => .field object.unshielded name
  | .index object position => .index object.unshielded position.unshielded
  | literal => literal

/-- Expressions whose fields are taken of what they were taken the first element of. -/
def unshieldedAll : List Expr → List Expr
  | [] => []
  | e :: es => e.unshielded :: unshieldedAll es

end

mutual

/-- Nothing is lost when fields are kept apart. -/
theorem unshielded_shielded (e : Expr) : e.shielded.unshielded = e := by
  -- Structural along the expression; only fields have changed, and these are changed back.
  match e with
  | .int _ | .float _ | .bool _ | .variable _ => simp [shielded, unshielded]
  | .unary _ operand => simp [shielded, unshielded, unshielded_shielded operand]
  | .binary _ left right =>
    simp [shielded, unshielded, unshielded_shielded left, unshielded_shielded right]
  | .ternary condition yes no =>
    simp [shielded, unshielded, unshielded_shielded condition, unshielded_shielded yes,
      unshielded_shielded no]
  -- The list of arguments is dealt with alongside.
  | .call _ arguments => simp [shielded, unshielded, unshieldedAll_shieldedAll arguments]
  | .field object _ => simp [shielded, unshielded, unshielded_shielded object]
  | .index object position =>
    simp [shielded, unshielded, unshielded_shielded object, unshielded_shielded position]

/-- Nothing is lost when fields in any of several expressions are kept apart. -/
theorem unshieldedAll_shieldedAll (es : List Expr) : unshieldedAll (shieldedAll es) = es := by
  -- One expression after the other, together with the law for a single one.
  match es with
  | [] => rfl
  | e :: es =>
    simp [shieldedAll, unshieldedAll, unshielded_shielded e, unshieldedAll_shieldedAll es]

end

mutual

/-- Calls are renamed alike whether fields are kept apart or not. -/
theorem renamed_shielded (e : Expr) : e.shielded.renamed = e.renamed.shielded := by
  -- Structural along the expression; renaming looks at calls only, and shielding at fields only.
  match e with
  | .int _ | .float _ | .bool _ | .variable _ => simp [shielded, renamed]
  | .unary _ operand => simp [shielded, renamed, renamed_shielded operand]
  | .binary _ left right =>
    simp [shielded, renamed, renamed_shielded left, renamed_shielded right]
  | .ternary condition yes no =>
    simp [shielded, renamed, renamed_shielded condition, renamed_shielded yes, renamed_shielded no]
  -- The list of arguments is dealt with alongside.
  | .call _ arguments => simp [shielded, renamed, renamedAll_shieldedAll arguments]
  | .field object _ => simp [shielded, renamed, renamed_shielded object]
  | .index object position =>
    simp [shielded, renamed, renamed_shielded object, renamed_shielded position]

/-- Calls in several expressions are renamed alike whether fields are kept apart or not. -/
theorem renamedAll_shieldedAll (es : List Expr) :
    renamedAll (shieldedAll es) = shieldedAll (renamedAll es) := by
  -- One expression after the other, together with the law for a single one.
  match es with
  | [] => rfl
  | e :: es =>
    simp [shieldedAll, renamedAll, renamed_shielded e, renamedAll_shieldedAll es]

end

/-- What is written for an expression with fields kept apart gives its renamed form back. -/
theorem unshielded_renamed_shielded (e : Expr) : e.shielded.renamed.unshielded = e.renamed := by
  -- Renaming is moved inside, so that the two changes of fields meet.
  rw [renamed_shielded, unshielded_shielded]

/-- Fields are kept apart in each of several expressions. -/
theorem mem_shieldedAll {e : Expr} {es : List Expr} :
    e ∈ shieldedAll es ↔ ∃ inner ∈ es, inner.shielded = e := by
  -- The list is shielded element by element.
  induction es with
  | nil => simp [shieldedAll]
  | cons first es ih => simp [shieldedAll, ih, eq_comm]

/-- Keeping fields apart makes valid expressions of valid ones. -/
theorem Valid.shielded {e : Expr} (valid : e.Valid) : e.shielded.Valid := by
  have zero : Valid (.int 0) := Valid.int (Nat.zero_le _)
  induction valid with
  | int small => exact .int small
  | float finite unsigned => exact .float finite unsigned
  | bool => exact .bool
  | named isName free untyped => exact .named isName free untyped
  | unary _ ih => exact .unary ih
  | binary _ _ left right => exact .binary left right
  | ternary _ _ _ condition yes no => exact .ternary condition yes no
  | construct _ ih =>
    -- Each argument of the shielded call is one of the original arguments, shielded.
    refine .construct fun e member => ?_
    obtain ⟨inner, within, rfl⟩ := mem_shieldedAll.mp member
    exact ih inner within
  | call isName free untyped _ ih =>
    refine .call isName free untyped fun e member => ?_
    obtain ⟨inner, within, rfl⟩ := mem_shieldedAll.mp member
    exact ih inner within
  | field _ isName free ih =>
    -- The first element of anything valid is valid.
    exact .field (.index ih zero) isName free
  | index _ _ object position => exact .index object position

/-- No field is taken of an integer when fields are kept apart. -/
theorem Valid.noIntegerField_shielded {e : Expr} (valid : e.Valid) : e.shielded.NoIntegerField := by
  -- A field inside of an expression is inside of one of its parts, or it is that of the object.
  induction valid with
  | int | float | bool | named =>
    intro value name within
    cases within
  | unary _ ih =>
    intro value name within
    cases within with
    | operand within => exact ih value name within
  | binary _ _ left right =>
    intro value name within
    cases within with
    | left within => exact left value name within
    | right within => exact right value name within
  | ternary _ _ _ condition yes no =>
    intro value name within
    cases within with
    | condition within => exact condition value name within
    | yes within => exact yes value name within
    | no within => exact no value name within
  | construct _ ih | call _ _ _ _ ih =>
    intro value name within
    cases within with
    | argument member within =>
      -- The argument was an argument before, and kept its own fields apart.
      obtain ⟨inner, inside, rfl⟩ := mem_shieldedAll.mp member
      exact ih inner inside value name within
  | field _ _ _ ih =>
    intro value name within
    cases within with
    | object within =>
      -- The object of the field is an index now, and its position has no fields.
      cases within with
      | indexed within => exact ih value name within
      | position within => cases within
  -- An index that was one before is no field either.
  | index _ _ object position =>
    intro value name within
    cases within with
    | indexed within => exact object value name within
    | position within => exact position value name within

end Expr

namespace Glsl

open Cursor

/-- Keeping fields apart changes no rank. -/
theorem rank_shielded (e : Expr) : rank e.shielded = rank e := by
  -- A rank depends on the outermost constructor, which stays.
  cases e <;> simp [Expr.shielded, rank]

/-- Keeping fields apart changes no sign. -/
theorem isNegation_shielded (e : Expr) : isNegation e.shielded = isNegation e := by
  -- A sign in front is that of the outermost constructor, which stays.
  cases e with
  | unary op => cases op <;> rfl
  | _ => simp [Expr.shielded, isNegation]

end Glsl

end Shading

import Shading.Binary32.Shortest
import Shading.Glsl.Mark
import Shading.Language.Expr

/-! Written expressions, in parentheses only where precedence asks for them. -/

namespace Shading

namespace Glsl

/-- How loosely an operator binds in GLSL. -/
def binaryRank : BinaryOp → Nat
  | .multiply | .divide => 4
  | .add | .subtract => 5
  | .less | .greater | .lessEqual | .greaterEqual => 7
  | .equal | .notEqual => 8
  | .bitAnd => 9
  | .bitOr => 11
  | .and => 12
  | .or => 14

/-- How loosely calls, fields and indices bind in GLSL. -/
def suffixRank : Nat := 2

/-- How loosely operators before an operand bind in GLSL. -/
def unaryRank : Nat := 3

/-- How loosely a choice between two expressions binds in GLSL. -/
def ternaryRank : Nat := 15

/-- How loosely an expression binds in GLSL. -/
def rank : Expr → Nat
  | .int _ | .float _ | .bool _ | .variable _ => 0
  | .call _ _ | .field _ _ | .index _ _ => suffixRank
  | .unary _ _ => unaryRank
  | .binary op _ _ => binaryRank op
  | .ternary _ _ _ => ternaryRank

/-- The name of a called function in GLSL. -/
def callee (name : String) : String :=
  if name = "sample" then "texture"
  else if name = "texture2D" then "sampler2D"
  else name

/-- The literal of a float: its digits, with a point at the end if it is integral. -/
def floatLiteral (x : Binary32) : String :=
  -- Without the point an integral number would be read as an integer.
  String.ofList (if x.isIntegral then x.plain ++ ['.'] else x.plain)

/-- Two minus signs in a row would be read as one operator. -/
def isNegation : Expr → Bool
  | .unary .negate _ => true
  | _ => false

mutual

/-- The marks of an expression. -/
def exprMarks : Expr → List Mark
  | .int value => [.token value.repr]
  | .float value => [.token (floatLiteral value)]
  | .bool value => [.token (if value then "true" else "false")]
  | .variable name => [.token name]
  | .unary op operand =>
    .token op.symbol.spelling ::
      wrap (unaryRank < rank operand || (op == .negate && isNegation operand)) (exprMarks operand)
  | .binary op left right =>
    -- Operators of one rank are read from the left, so only the right operand has to bind tighter.
    wrap (binaryRank op < rank left) (exprMarks left) ++ .token op.symbol.spelling ::
      wrap (binaryRank op ≤ rank right) (exprMarks right)
  | .ternary condition yes no =>
    wrap (ternaryRank ≤ rank condition) (exprMarks condition) ++ .space :: .token "?" :: .space ::
      exprMarks yes ++ .space :: .token ":" :: .space :: exprMarks no
  | .call name arguments => .token (callee name) :: .token "(" :: argumentMarks arguments ++ [.token ")"]
  | .field object name =>
    wrap (suffixRank < rank object) (exprMarks object) ++ [.token ".", .token name]
  | .index object position =>
    wrap (suffixRank < rank object) (exprMarks object) ++ .token "[" :: exprMarks position ++ [.token "]"]

/-- The marks of the arguments of a call. -/
def argumentMarks : List Expr → List Mark
  | [] => []
  | [argument] => exprMarks argument
  | argument :: more => exprMarks argument ++ .token "," :: .space :: argumentMarks more

end

end Glsl

end Shading

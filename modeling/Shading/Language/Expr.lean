import Shading.Binary32.Basic
import Shading.Language.Symbol

/-! Expressions of stage bodies. -/

namespace Shading

/-- An operator before its operand. -/
inductive UnaryOp
  | negate | complement
deriving DecidableEq, Inhabited

namespace UnaryOp

/-- The symbol of an operator. -/
def symbol : UnaryOp → Symbol
  | negate => .minus
  | complement => .bang

/-- The operator that a symbol is before an operand. -/
def ofSymbol? : Symbol → Option UnaryOp
  | .minus => some negate
  | .bang => some complement
  | _ => none

end UnaryOp

/-- An operator between two operands. -/
inductive BinaryOp
  | or | and | bitOr | bitAnd | equal | notEqual | less | greater | lessEqual | greaterEqual
  | add | subtract | multiply | divide
deriving DecidableEq, Inhabited

namespace BinaryOp

/-- The symbol of an operator. -/
def symbol : BinaryOp → Symbol
  | or => .either
  | and => .both
  | bitOr => .bar
  | bitAnd => .ampersand
  | equal => .equal
  | notEqual => .notEqual
  | less => .less
  | greater => .greater
  | lessEqual => .lessEqual
  | greaterEqual => .greaterEqual
  | add => .plus
  | subtract => .minus
  | multiply => .star
  | divide => .slash

/-- The operator that a symbol is between two operands. -/
def ofSymbol? : Symbol → Option BinaryOp
  | .either => some or
  | .both => some and
  | .bar => some bitOr
  | .ampersand => some bitAnd
  | .equal => some equal
  | .notEqual => some notEqual
  | .less => some less
  | .greater => some greater
  | .lessEqual => some lessEqual
  | .greaterEqual => some greaterEqual
  | .plus => some add
  | .minus => some subtract
  | .star => some multiply
  | .slash => some divide
  | _ => none

/-- How tightly an operator binds, from one for the loosest to eight. -/
def precedence : BinaryOp → Nat
  | or => 1
  | and => 2
  | bitOr => 3
  | bitAnd => 4
  | equal | notEqual => 5
  | less | greater | lessEqual | greaterEqual => 6
  | add | subtract => 7
  | multiply | divide => 8

/-- The number of levels on which operators bind. -/
def levels : Nat := 8

end BinaryOp

/-- An expression. -/
inductive Expr
  | int (value : Int)
  | float (value : Binary32)
  | bool (value : Bool)
  | variable (name : String)
  | unary (op : UnaryOp) (operand : Expr)
  | binary (op : BinaryOp) (left right : Expr)
  | ternary (condition yes no : Expr)
  | call (callee : String) (arguments : List Expr)
  | field (object : Expr) (name : String)
  | index (object position : Expr)
deriving Inhabited

end Shading

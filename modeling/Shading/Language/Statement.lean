import Shading.Language.DataType
import Shading.Language.Expr

/-! Statements of stage bodies. -/

namespace Shading

/-- The way an assignment changes its target. -/
inductive AssignOp
  | set | add | multiply | divide | and | or
deriving DecidableEq, Inhabited

namespace AssignOp

/-- The symbol of an assignment. -/
def symbol : AssignOp → Symbol
  | set => .assign
  | add => .plusAssign
  | multiply => .starAssign
  | divide => .slashAssign
  | and => .ampersandAssign
  | or => .barAssign

/-- The assignment that a symbol stands for. -/
def ofSymbol? : Symbol → Option AssignOp
  | .assign => some set
  | .plusAssign => some add
  | .starAssign => some multiply
  | .slashAssign => some divide
  | .ampersandAssign => some and
  | .barAssign => some or
  | _ => none

end AssignOp

/-- Variables, fields and indices can be assigned to. -/
def Expr.isAssignable : Expr → Bool
  | .variable _ | .field _ _ | .index _ _ => true
  | _ => false

/-- A stage of the rendering pipeline. -/
inductive Stage
  | vertex | fragment
deriving DecidableEq, Inhabited

/-- The name of a stage. -/
def Stage.name : Stage → String
  | vertex => "vertex"
  | fragment => "fragment"

/-- A statement; a block is a list of them. -/
inductive Statement
  | declare (declaration : Declaration) (initial : Option Expr)
  | assign (target : Expr) (op : AssignOp) (value : Expr)
  | evaluate (expression : Expr)
  | ifThen (condition : Expr) (yes : List Statement)
  | ifThenElse (condition : Expr) (yes no : List Statement)
  | discard
  | leave
deriving Inhabited

/-- The statement is an `if`, with or without an alternative. -/
def Statement.isSelection : Statement → Bool
  | ifThen _ _ | ifThenElse _ _ _ => true
  | _ => false

end Shading

import Shading.Language.Statement
import Shading.Source.Guard

/-! Statements as sources hold them, before the defines are known. -/

namespace Shading

/-- A statement of a source, or a choice between two lists of them. -/
inductive SourceStatement
  | declare (declaration : Declaration) (initial : Option Expr)
  | assign (target : Expr) (op : AssignOp) (value : Expr)
  | evaluate (expression : Expr)
  | ifThen (condition : Expr) (yes : List SourceStatement)
  | ifThenElse (condition : Expr) (yes no : List SourceStatement)
  | discard
  | leave
  | choice (guard : Guard) (yes no : List SourceStatement)
deriving Inhabited

mutual

/-- The statements that stand for a statement of a source under the given defines. -/
def SourceStatement.resolve (isDefined : String → Bool) : SourceStatement → List Statement
  | .declare declaration initial => [.declare declaration initial]
  | .assign target op value => [.assign target op value]
  | .evaluate expression => [.evaluate expression]
  | .ifThen condition yes => [.ifThen condition (resolveAll isDefined yes)]
  | .ifThenElse condition yes no =>
    [.ifThenElse condition (resolveAll isDefined yes) (resolveAll isDefined no)]
  | .discard => [.discard]
  | .leave => [.leave]
  -- The chosen statements take the place of the choice.
  | .choice guard yes no =>
    if guard.holds isDefined then resolveAll isDefined yes else resolveAll isDefined no

/-- The statements that stand for a block of a source under the given defines. -/
def resolveAll (isDefined : String → Bool) : List SourceStatement → List Statement
  | [] => []
  | statement :: rest => statement.resolve isDefined ++ resolveAll isDefined rest

end

end Shading

import Shading.Glsl.Expr
import Shading.Language.Statement
import Shading.Writer

/-! Written statements, and those that GLSL cannot express. -/

namespace Shading.Glsl

/-- The word for a type in GLSL, where textures are read through samplers. -/
def typeWord : DataType → String
  | .texture2D => "sampler2D"
  | type => type.keyword

/-- The marks of a condition, up to the brace before what depends on it. -/
def conditionMarks (condition : Expr) : List Mark :=
  .token "if" :: .space :: .token "(" :: exprMarks condition ++ [.token ")", .space, .token "\x7b", .newline]

/-- Marks between braces on lines of their own. -/
def compound (marks : List Mark) : List Mark :=
  .token "\x7b" :: .newline :: marks ++ [.token "\x7d", .newline]

mutual

/-- The marks of a statement. -/
def statementMarks : Statement → List Mark
  | .declare declaration none =>
    [.token (typeWord declaration.type), .space, .token declaration.name, .token ";", .newline]
  | .declare declaration (some initial) =>
    .token (typeWord declaration.type) :: .space :: .token declaration.name :: .space :: .token "=" ::
      .space :: exprMarks initial ++ [.token ";", .newline]
  | .assign target op value =>
    exprMarks target ++ .space :: .token op.symbol.spelling :: .space :: exprMarks value ++
      [.token ";", .newline]
  | .evaluate expression => exprMarks expression ++ [.token ";", .newline]
  | .ifThen condition yes =>
    conditionMarks condition ++ compound (blockMarks yes) ++ [.token "\x7d", .newline]
  | .ifThenElse condition yes no =>
    conditionMarks condition ++ compound (blockMarks yes) ++
      .token "\x7d" :: .space :: .token "else" :: .space :: alternativeMarks no
  | .discard => [.token "discard", .token ";", .newline]
  | .leave => [.token "return", .space, .token ";", .newline]

/-- The marks of the statements of a block. -/
def blockMarks : List Statement → List Mark
  | [] => []
  | statement :: rest => statementMarks statement ++ blockMarks rest

/-- The marks of an alternative, which needs no braces if it is a single `if`. -/
def alternativeMarks : List Statement → List Mark
  | [] => compound []
  | statement :: rest =>
    if statement.isSelection && rest.isEmpty then statementMarks statement
    else compound (statementMarks statement ++ blockMarks rest)

end

mutual

/-- Checks that a statement of a stage can be expressed. -/
def checkStatement (stage : Stage) : Statement → Except WriteError Unit
  | .declare declaration _ =>
    -- Textures exist as uniforms only.
    if declaration.type = .texture2D then
      .error (.unsupportedConstruct (.localTexture declaration.name))
    else .ok ()
  | .ifThen _ yes => checkBlock stage yes
  | .ifThenElse _ yes no => do
    checkBlock stage yes
    checkBlock stage no
  | .discard =>
    -- Only a fragment can be given up.
    if stage = .vertex then .error (.unsupportedConstruct .discardInVertexStage) else .ok ()
  | .assign .. | .evaluate _ | .leave => .ok ()

/-- Checks that the statements of a block can be expressed, up to the first that cannot. -/
def checkBlock (stage : Stage) : List Statement → Except WriteError Unit
  | [] => .ok ()
  | statement :: rest => do
    checkStatement stage statement
    checkBlock stage rest

end

end Shading.Glsl

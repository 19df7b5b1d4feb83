import Shading.Proofs.Grammar.Heads

/-! The grammar of expressions: which words stand for which tree, and how deeply they are nested. -/

namespace Shading.Grammar

open Source

/-- A part of an expression that the grammar has rules for, with the tree it stands for. -/
inductive ExprPhrase
  | expression (e : Expr)
  /-- Operands of a level of operators; the leftmost of them is followed by this many operators. -/
  | joined (level count : Nat) (e : Expr)
  | operand (e : Expr)
  | suffixed (e : Expr)
  | primary (e : Expr)
  /-- What follows the opening parenthesis of a call, the closing one included. -/
  | arguments (es : List Expr)
  /-- What follows an argument, the closing parenthesis included. -/
  | moreArguments (es : List Expr)

/--
The words begin with a phrase, nested within a number of levels, after which the rest remains.

No rule looks at the words that remain: what a phrase may be does not depend on what follows it.
-/
inductive ExprPhrase.Spans : Nat → ExprPhrase → List Token → List Token → Prop
  | plain {room count e tokens rest} :
    Spans room (.joined 1 count e) tokens rest →
    Spans (room + 1) (.expression e) tokens rest
  | ternary {room count condition yes no tokens line afterCondition line' afterYes rest} :
    Spans room (.joined 1 count condition) tokens (sign .question line :: afterCondition) →
    Spans room (.expression yes) afterCondition (sign .colon line' :: afterYes) →
    Spans room (.expression no) afterYes rest →
    Spans (room + 1) (.expression (.ternary condition yes no)) tokens rest
  -- Operators of eight levels join operands, those of a level from the left.
  | single {room e tokens rest} :
    Spans room (.operand e) tokens rest →
    Spans room (.joined (BinaryOp.levels + 1) 0 e) tokens rest
  | tighter {room level count e tokens rest} :
    Spans room (.joined (level + 1) count e) tokens rest →
    Spans room (.joined level count e) tokens rest
  | join {room count count' op left right tokens line afterLeft rest} :
    Spans room (.joined op.precedence count left) tokens (sign op.symbol line :: afterLeft) →
    Spans room (.joined (op.precedence + 1) count' right) afterLeft rest →
    count < room →
    Spans room (.joined op.precedence (count + 1) (.binary op left right)) tokens rest
  | signed {room} {op : UnaryOp} {e line tokens rest} :
    Spans room (.operand e) tokens rest →
    Spans (room + 1) (.operand (.unary op e)) (sign op.symbol line :: tokens) rest
  | unsigned {room e tokens rest} :
    Spans room (.suffixed e) tokens rest →
    Spans room (.operand e) tokens rest
  | bare {room e tokens rest} :
    Spans room (.primary e) tokens rest →
    Spans room (.suffixed e) tokens rest
  -- The keyword of a type is an expression only where it is called.
  | construct {room} {type : DataType} {es line line' tokens rest} :
    Spans room (.arguments es) tokens rest →
    Spans room (.suffixed (.call type.keyword es))
      (word type.keyword line :: sign .leftParen line' :: tokens) rest
  | call {room callee es tokens line afterCallee rest} :
    Spans room (.suffixed (.variable callee)) tokens (sign .leftParen line :: afterCallee) →
    Spans room (.arguments es) afterCallee rest →
    Spans room (.suffixed (.call callee es)) tokens rest
  | field {room object name tokens line line' rest} :
    Spans room (.suffixed object) tokens (sign .dot line :: word name line' :: rest) →
    isReserved name = false →
    Spans room (.suffixed (.field object name)) tokens rest
  | index {room object position tokens line afterObject line' rest} :
    Spans room (.suffixed object) tokens (sign .leftBracket line :: afterObject) →
    Spans room (.expression position) afterObject (sign .rightBracket line' :: rest) →
    Spans room (.suffixed (.index object position)) tokens rest
  | int {room text line rest} {value : Nat} :
    Spans room (.primary (.int value)) (⟨.integer text value, line⟩ :: rest) rest
  | float {room text value line rest} :
    Spans room (.primary (.float value)) (⟨.float text value, line⟩ :: rest) rest
  | bool {room value line rest} :
    Spans room (.primary (.bool value)) (⟨.boolean value, line⟩ :: rest) rest
  | named {room name line rest} :
    isReserved name = false →
    DataType.ofKeyword? name = none →
    Spans room (.primary (.variable name)) (word name line :: rest) rest
  | parenthesised {room e line tokens line' rest} :
    Spans room (.expression e) tokens (sign .rightParen line' :: rest) →
    Spans room (.primary e) (sign .leftParen line :: tokens) rest
  | noArguments {room line rest} :
    Spans room (.arguments []) (sign .rightParen line :: rest) rest
  | firstArgument {room e es tokens afterFirst rest} :
    Spans room (.expression e) tokens afterFirst →
    Spans room (.moreArguments es) afterFirst rest →
    Spans room (.arguments (e :: es)) tokens rest
  | endArguments {room line rest} :
    Spans room (.moreArguments []) (sign .rightParen line :: rest) rest
  | nextArgument {room e es line tokens afterNext rest} :
    Spans room (.expression e) tokens afterNext →
    Spans room (.moreArguments es) afterNext rest →
    Spans room (.moreArguments (e :: es)) (sign .comma line :: tokens) rest

namespace ExprPhrase.Spans

variable {room : Nat} {phrase : ExprPhrase} {tokens rest : List Token}

/-- A phrase takes words from the front, and not the one that ends the source. -/
theorem remains (spans : phrase.Spans room tokens rest) : Remains rest tokens := by
  -- The words of a phrase are those of its parts and the symbols between them.
  induction spans with
  | plain _ ih | single _ ih | tighter _ ih | unsigned _ ih | bare _ ih => exact ih
  | signed _ ih => exact ih.trans .one
  | ternary _ _ _ condition yes no =>
    exact (no.trans yes.drop).trans condition.drop
  | join _ _ _ left right => exact right.trans left.drop
  | construct _ ih => exact ih.trans (Remains.one).drop
  | call _ _ callee arguments => exact arguments.trans callee.drop
  | field _ _ object => exact object.drop.drop
  | index _ _ object position => exact position.drop.trans object.drop
  | int | float | bool | named | noArguments | endArguments => exact .one
  | parenthesised _ ih => exact ih.drop.trans .one
  -- Arguments are read in their order, and the last of them leaves what remains.
  | firstArgument _ _ first more => exact more.trans first
  | nextArgument _ _ next more => exact (more.trans next).trans .one

/-- A phrase takes at least one word. -/
theorem shorter (spans : phrase.Spans room tokens rest) : rest.length < tokens.length := by
  -- A phrase within another one is shorter, and all other words of a rule stand in front.
  induction spans with
  | plain _ ih | single _ ih | tighter _ ih | unsigned _ ih | bare _ ih => exact ih
  | firstArgument _ _ first more => exact Nat.lt_trans more first
  | _ =>
    simp only [List.length_cons] at *
    omega

/-- A phrase fits within one level more than it needs. -/
theorem step (spans : phrase.Spans room tokens rest) : phrase.Spans (room + 1) tokens rest := by
  -- Every rule allows more levels: those that count them ask for one more than within them.
  induction spans with
  | plain _ ih => exact .plain ih
  | ternary _ _ _ condition yes no => exact .ternary condition yes no
  | single _ ih => exact .single ih
  | tighter _ ih => exact .tighter ih
  -- The count of operators is bounded by the levels, which only become more.
  | join _ _ fits left right => exact .join left right (by omega)
  -- Where a rule takes a level away, its premise goes up by one as well.
  | signed _ ih => exact .signed ih
  | unsigned _ ih => exact .unsigned ih
  | bare _ ih => exact .bare ih
  | construct _ ih => exact .construct ih
  | call _ _ callee arguments => exact .call callee arguments
  | field _ free object => exact .field object free
  | index _ _ object position => exact .index object position
  | int => exact .int
  | float => exact .float
  | bool => exact .bool
  | named free untyped => exact .named free untyped
  | parenthesised _ ih => exact .parenthesised ih
  | noArguments => exact .noArguments
  | firstArgument _ _ first more => exact .firstArgument first more
  | endArguments => exact .endArguments
  | nextArgument _ _ next more => exact .nextArgument next more

/-- A phrase that fits within a number of levels fits within more of them. -/
theorem mono (spans : phrase.Spans room tokens rest) {wider : Nat} (enough : room ≤ wider) :
    phrase.Spans wider tokens rest := by
  -- The levels are added one at a time.
  induction enough with
  | refl => exact spans
  | step _ ih => exact ih.step

/-- Operands joined on a level stand for operands of every looser level. -/
theorem looser {level least count : Nat} {e : Expr} (loose : least ≤ level)
    (spans : (joined level count e).Spans room tokens rest) :
    (joined least count e).Spans room tokens rest := by
  -- The levels in between are passed one by one.
  induction loose with
  | refl => exact spans
  | step _ ih => exact ih (.tighter spans)

end ExprPhrase.Spans

/-- All phrases but lists of arguments are expressions. -/
def ExprPhrase.IsExpression : ExprPhrase → Prop
  | .arguments _ | .moreArguments _ => False
  | _ => True

/-- What words must not start with to start an expression. -/
structure StartsExpression (tokens : List Token) : Prop where
  noKeyword : headKeyword? tokens = none
  noSign : ∀ symbol ∈ [Symbol.rightParen, .leftBrace, .rightBrace], startsWith symbol tokens = false
  noEnd : (headToken tokens).isEnd = false
  /-- An identifier after the keyword of a type makes it a declaration. -/
  noDeclaration : ∀ {name line rest}, tokens = word name line :: rest →
    (DataType.ofKeyword? name).isSome → startsWithIdentifier rest = false

/-- An expression starts with a literal, a name, a parenthesis or an operator before an operand. -/
theorem ExprPhrase.Spans.starts {room : Nat} {phrase : ExprPhrase} {tokens rest : List Token}
    (spans : phrase.Spans room tokens rest) (isExpression : phrase.IsExpression) :
    StartsExpression tokens := by
  induction spans with
  | plain _ ih | single _ ih | tighter _ ih | unsigned _ ih | bare _ ih => exact ih trivial
  -- The first word of the leftmost phrase within is the first one of the whole.
  | ternary _ _ _ ih | join _ _ _ ih | call _ _ ih | index _ _ ih | field _ _ ih => exact ih trivial
  | @signed _ op =>
    -- The symbol before an operand is none of those that start no expression.
    refine ⟨rfl, ?_, rfl, by simp⟩
    cases op <;> simp [UnaryOp.symbol]
  | @construct _ type =>
    refine ⟨?_, by simp, rfl, ?_⟩
    · cases type <;> rfl
    · -- It is called, and a parenthesis is no identifier.
      rintro _ _ _ same -
      cases same
      rfl
  | int | float | bool => exact ⟨rfl, by simp [startsWith], rfl, by simp⟩
  -- A word that names no type begins no declaration.
  | named free untyped =>
    refine ⟨?_, by simp, rfl, ?_⟩
    · simpa [isReserved] using free
    · rintro _ _ _ same typed
      cases same
      simp [untyped] at typed
  | parenthesised => exact ⟨rfl, by simp, rfl, by simp⟩
  | noArguments | firstArgument | endArguments | nextArgument => exact isExpression.elim

end Shading.Grammar

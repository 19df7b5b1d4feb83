import Shading.Proofs.Grammar.Expr
import Shading.Proofs.Grammar.Parts

/-! The grammar of statements: which words stand for which statements, and how deeply nested. -/

namespace Shading.Grammar

open Source

/-- A part of a body that the grammar has rules for, with the statements it stands for. -/
inductive BodyPhrase
  | statement (s : SourceStatement)
  | selection (s : SourceStatement)
  | conditional (s : SourceStatement)
  | block (ss : List SourceStatement)
  /-- What follows the opening brace of a block, the closing one included. -/
  | blockEnd (ss : List SourceStatement)
  /-- What follows the opening brace of a region, the closing one included. -/
  | region (ss : List SourceStatement)
  /-- What follows the first region of a conditional, which may be nothing. -/
  | alternative (ss : List SourceStatement)

/-- The fewest words that a phrase takes. -/
def BodyPhrase.leastLength : BodyPhrase → Nat
  | .alternative _ => 0
  | _ => 1

/-- The words begin with a phrase, nested within a number of levels, after which the rest remains. -/
inductive BodyPhrase.Spans : Nat → BodyPhrase → List Token → List Token → Prop
  | declare {room type name line line' line'' rest} :
    isReserved name = false →
    Spans room (.statement (.declare ⟨type, name⟩ none))
      (word type.keyword line :: word name line' :: sign .semicolon line'' :: rest) rest
  | initialise {room type name initial line line' line'' tokens line''' rest} :
    isReserved name = false →
    (ExprPhrase.expression initial).Spans room tokens (sign .semicolon line''' :: rest) →
    Spans room (.statement (.declare ⟨type, name⟩ (some initial)))
      (word type.keyword line :: word name line' :: sign .assign line'' :: tokens) rest
  | assign {room target op value tokens line afterTarget line' rest} :
    (ExprPhrase.expression target).Spans room tokens (sign op.symbol line :: afterTarget) →
    target.isAssignable = true →
    (ExprPhrase.expression value).Spans room afterTarget (sign .semicolon line' :: rest) →
    Spans room (.statement (.assign target op value)) tokens rest
  | evaluate {room e tokens line rest} :
    (ExprPhrase.expression e).Spans room tokens (sign .semicolon line :: rest) →
    Spans room (.statement (.evaluate e)) tokens rest
  | discard {room line line' rest} :
    Spans room (.statement .discard)
      (word (Keyword.spelling .discard) line :: sign .semicolon line' :: rest) rest
  | leave {room line line' rest} :
    Spans room (.statement .leave)
      (word (Keyword.spelling .leave) line :: sign .semicolon line' :: rest) rest
  | selected {room s tokens rest} :
    Spans room (.selection s) tokens rest →
    Spans room (.statement s) tokens rest
  | tested {room s tokens rest} :
    Spans room (.conditional s) tokens rest →
    Spans room (.statement s) tokens rest
  | ifThen {room condition yes line line' tokens line'' afterCondition rest} :
    (ExprPhrase.expression condition).Spans room tokens
      (sign .rightParen line'' :: afterCondition) →
    Spans room (.block yes) afterCondition rest →
    Spans room (.selection (.ifThen condition yes))
      (word (Keyword.spelling .selection) line :: sign .leftParen line' :: tokens) rest
  | ifThenElse {room condition yes no line line' tokens line'' afterCondition line''' afterElse rest} :
    (ExprPhrase.expression condition).Spans room tokens
      (sign .rightParen line'' :: afterCondition) →
    Spans room (.block yes) afterCondition (word (Keyword.spelling .otherwise) line''' :: afterElse) →
    Spans room (.block no) afterElse rest →
    Spans room (.selection (.ifThenElse condition yes no))
      (word (Keyword.spelling .selection) line :: sign .leftParen line' :: tokens) rest
  -- An `if` after `else` needs no block, but a level of its own.
  | ifElseIf {room condition yes no line line' tokens line'' afterCondition line''' afterElse rest} :
    (ExprPhrase.expression condition).Spans (room + 1) tokens
      (sign .rightParen line'' :: afterCondition) →
    Spans (room + 1) (.block yes) afterCondition
      (word (Keyword.spelling .otherwise) line''' :: afterElse) →
    Spans room (.selection no) afterElse rest →
    Spans (room + 1) (.selection (.ifThenElse condition yes [no]))
      (word (Keyword.spelling .selection) line :: sign .leftParen line' :: tokens) rest
  | conditional {room key present yes no line line' line'' tokens afterYes rest} :
    isReserved key = false →
    Spans room (.region yes) tokens afterYes →
    Spans room (.alternative no) afterYes rest →
    Spans room (.conditional (.choice ⟨key, present⟩ yes no))
      (word (testKeyword present).spelling line :: word key line' :: sign .leftBrace line'' :: tokens)
      rest
  | block {room ss line tokens rest} :
    Spans room (.blockEnd ss) tokens rest →
    Spans (room + 1) (.block ss) (sign .leftBrace line :: tokens) rest
  | endBlock {room line rest} :
    Spans room (.blockEnd []) (sign .rightBrace line :: rest) rest
  | nextInBlock {room s ss tokens afterFirst rest} :
    Spans room (.statement s) tokens afterFirst →
    Spans room (.blockEnd ss) afterFirst rest →
    Spans room (.blockEnd (s :: ss)) tokens rest
  | endRegion {room line rest} :
    Spans room (.region []) (sign .rightBrace line :: rest) rest
  | nextInRegion {room s ss tokens afterFirst rest} :
    Spans room (.statement s) tokens afterFirst →
    Spans (room + 1) (.region ss) afterFirst rest →
    Spans (room + 1) (.region (s :: ss)) tokens rest
  | without {room rest} :
    Spans room (.alternative []) rest rest
  | otherwise {room ss line line' tokens rest} :
    Spans room (.region ss) tokens rest →
    Spans room (.alternative ss)
      (word (Keyword.spelling .otherwise) line :: sign .leftBrace line' :: tokens) rest
  | chained {room s line tokens rest} :
    Spans room (.conditional s) tokens rest →
    Spans (room + 1) (.alternative [s])
      (word (Keyword.spelling .otherwise) line :: tokens) rest

namespace BodyPhrase.Spans

variable {room : Nat} {phrase : BodyPhrase} {tokens rest : List Token}

/-- A phrase takes words from the front, and not the one that ends the source. -/
theorem remains (spans : phrase.Spans room tokens rest) : Remains rest tokens := by
  -- A phrase takes what its parts take, and the words between them, none of which ends the source.
  induction spans with
  | declare =>
    exact (Remains.one).drop.drop
  | initialise _ initial =>
    exact initial.remains.drop.trans (Remains.one).drop.drop
  | assign target _ value => exact value.remains.drop.trans target.remains.drop
  | evaluate e => exact e.remains.drop
  | discard | leave => exact (Remains.one).drop
  | selected _ ih | tested _ ih => exact ih
  | ifThen condition _ yes =>
    exact (yes.trans condition.remains.drop).trans
      (Remains.one).drop
  | ifThenElse condition _ _ yes no | ifElseIf condition _ _ yes no =>
    exact ((no.trans yes.drop).trans condition.remains.drop).trans
      (Remains.one).drop
  -- The parts are read in their order, so that the last one leaves what remains of all.
  | conditional _ _ _ yes no =>
    exact (no.trans yes).trans (Remains.one).drop.drop
  | block _ ih => exact ih.trans .one
  | endBlock | endRegion => exact .one
  -- The first of several parts leaves the words of the others.
  | nextInBlock _ _ first more | nextInRegion _ _ first more => exact more.trans first
  | without => exact .refl _
  | otherwise _ ih => exact ih.trans (Remains.one).drop
  | chained _ ih => exact ih.trans .one

/-- A phrase takes at least one word, unless it is an alternative that is left out. -/
theorem length_le (spans : phrase.Spans room tokens rest) :
    rest.length + phrase.leastLength ≤ tokens.length := by
  -- The words of an expression are at least one, and no phrase of statements makes up for fewer.
  induction spans with
  | initialise _ e | evaluate e | ifThen e _ _ | ifThenElse e _ _ _ _ | ifElseIf e _ _ _ _ =>
    have fewer := e.shorter
    simp only [leastLength, List.length_cons] at *
    omega
  -- An assignment holds two expressions.
  | assign target _ value =>
    have fewer := target.shorter
    have fewer' := value.shorter
    simp only [leastLength, List.length_cons] at *
    omega
  | _ =>
    simp only [leastLength, List.length_cons] at *
    omega

/-- A phrase fits within one level more than it needs. -/
theorem step (spans : phrase.Spans room tokens rest) : phrase.Spans (room + 1) tokens rest := by
  -- The room is passed on to all parts, or with one level less to those that are nested.
  induction spans with
  | declare free => exact .declare free
  | initialise free initial => exact .initialise free initial.step
  | assign target assignable value => exact .assign target.step assignable value.step
  | evaluate e => exact .evaluate e.step
  | discard => exact .discard
  | leave => exact .leave
  | selected _ ih => exact .selected ih
  | tested _ ih => exact .tested ih
  | ifThen condition _ yes => exact .ifThen condition.step yes
  | ifThenElse condition _ _ yes no => exact .ifThenElse condition.step yes no
  | ifElseIf condition _ _ yes no => exact .ifElseIf condition.step yes no
  | conditional free _ _ yes no => exact .conditional free yes no
  -- A block spends its level on the statements, which have one more as well.
  | block _ ih => exact .block ih
  | endBlock => exact .endBlock
  | nextInBlock _ _ first more => exact .nextInBlock first more
  | endRegion => exact .endRegion
  | nextInRegion _ _ first more => exact .nextInRegion first more
  | without => exact .without
  | otherwise _ ih => exact .otherwise ih
  | chained _ ih => exact .chained ih

/-- A phrase that fits within a number of levels fits within more of them. -/
theorem mono (spans : phrase.Spans room tokens rest) {wider : Nat} (enough : room ≤ wider) :
    phrase.Spans wider tokens rest := by
  -- The levels are added one at a time.
  induction enough with
  | refl => exact spans
  | step _ ih => exact ih.step

end BodyPhrase.Spans

/-- An expression may start a part. -/
theorem StartsExpression.startsPart {tokens : List Token} (starts : StartsExpression tokens) :
    StartsPart tokens :=
  -- What starts an expression is no keyword, no brace and no end.
  ⟨by simp [starts.noKeyword], starts.noSign .rightBrace (by simp), starts.noEnd⟩

/-- The keyword of a type may start a part. -/
theorem startsPart_type (type : DataType) (line : Nat) (rest : List Token) :
    StartsPart (word type.keyword line :: rest) :=
  -- The word of a type is no keyword, and it is neither a brace nor the end.
  ⟨by cases type <;> simp [DataType.keyword, Keyword.ofSpelling?], by simp, rfl⟩

/-- The phrases that stand for a single statement. -/
def BodyPhrase.IsSingle : BodyPhrase → Prop
  | .statement _ | .selection _ | .conditional _ => True
  | _ => False

/-- A statement starts with no brace and no `else`. -/
theorem BodyPhrase.Spans.starts {room : Nat} {phrase : BodyPhrase} {tokens rest : List Token}
    (spans : phrase.Spans room tokens rest) (single : phrase.IsSingle) : StartsPart tokens := by
  -- A phrase starts with its first part, and only single statements are asked for.
  induction spans with
  | declare | initialise => exact startsPart_type _ _ _
  | assign target _ _ => exact (target.starts trivial).startsPart
  | evaluate e => exact (e.starts trivial).startsPart
  | discard | leave | ifThen | ifThenElse | ifElseIf => exact startsPart_keyword (by decide) _ _
  | selected _ ih | tested _ ih => exact ih trivial
  | conditional => exact startsPart_test _ _ _
  | _ => exact single.elim

/-- What follows a statement of a block is no `else`. -/
theorem noElse_of_blockEnd {room : Nat} {ss : List SourceStatement} {tokens rest : List Token}
    (spans : (BodyPhrase.blockEnd ss).Spans room tokens rest) :
    headKeyword? tokens ≠ some .otherwise := by
  -- The first word is the brace, or that of a statement.
  cases spans with
  | endBlock => simp
  | nextInBlock first _ => exact (first.starts trivial).noElse

/-- What follows a statement of a region is no `else`. -/
theorem noElse_of_region {room : Nat} {ss : List SourceStatement} {tokens rest : List Token}
    (spans : (BodyPhrase.region ss).Spans room tokens rest) :
    headKeyword? tokens ≠ some .otherwise := by
  -- The first word is the brace, or that of a statement.
  cases spans with
  | endRegion => simp
  | nextInRegion first _ => exact (first.starts trivial).noElse

end Shading.Grammar

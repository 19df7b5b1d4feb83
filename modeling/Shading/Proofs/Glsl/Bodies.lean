import Shading.Glsl.Statement
import Shading.Proofs.Glsl.SourceText
import Shading.Proofs.Grammar.BodyComplete
import Shading.Proofs.Grammar.Contents

/-! Written bodies of stages are read back as the bodies that they were written for. -/

namespace Shading

mutual

/-- A statement with its expressions replaced. -/
def Statement.mapExprs (f : Expr → Expr) : Statement → Statement
  | .declare declaration initial => .declare declaration (initial.map f)
  | .assign target op value => .assign (f target) op (f value)
  | .evaluate expression => .evaluate (f expression)
  | .ifThen condition yes => .ifThen (f condition) (mapExprsAll f yes)
  | .ifThenElse condition yes no =>
    .ifThenElse (f condition) (mapExprsAll f yes) (mapExprsAll f no)
  | .discard => .discard
  | .leave => .leave

/-- Statements with their expressions replaced. -/
def mapExprsAll (f : Expr → Expr) : List Statement → List Statement
  | [] => []
  | s :: ss => s.mapExprs f :: mapExprsAll f ss

end

mutual

/-- Expressions that are replaced twice are replaced by both replacements. -/
theorem Statement.mapExprs_mapExprs (f g : Expr → Expr) (s : Statement) :
    (s.mapExprs f).mapExprs g = s.mapExprs (g ∘ f) := by
  -- Structural along the statement, together with the law for the statements nested in it.
  match s with
  | .declare _ initial => cases initial <;> simp [Statement.mapExprs]
  | .assign _ _ _ | .evaluate _ | .discard | .leave => simp [Statement.mapExprs]
  | .ifThen _ yes => simp [Statement.mapExprs, mapExprsAll_mapExprsAll f g yes]
  | .ifThenElse _ yes no =>
    simp [Statement.mapExprs, mapExprsAll_mapExprsAll f g yes, mapExprsAll_mapExprsAll f g no]

/-- Expressions of several statements that are replaced twice are replaced by both replacements. -/
theorem mapExprsAll_mapExprsAll (f g : Expr → Expr) (ss : List Statement) :
    mapExprsAll g (mapExprsAll f ss) = mapExprsAll (g ∘ f) ss := by
  -- One statement after the other, each by the law for a single one.
  match ss with
  | [] => rfl
  | s :: ss =>
    simp [mapExprsAll, Statement.mapExprs_mapExprs f g s, mapExprsAll_mapExprsAll f g ss]

end

namespace Glsl

open Cursor Grammar Source

/-- An expression as it is read back. -/
def readForm (e : Expr) : Expr :=
  e.shielded.renamed

/-- The block behind a condition, which stands in a region of its own. -/
def regionOf (ss : List SourceStatement) : List SourceStatement :=
  [.choice ⟨"on", true⟩ ss []]

mutual

/-- A statement as it is read back. -/
def sourceForm : Statement → SourceStatement
  | .declare declaration initial => .declare declaration (initial.map readForm)
  | .assign target op value => .assign (readForm target) op (readForm value)
  | .evaluate expression => .evaluate (readForm expression)
  | .ifThen condition yes => .ifThen (readForm condition) (regionOf (sourceForms yes))
  | .ifThenElse condition yes no =>
    .ifThenElse (readForm condition) (regionOf (sourceForms yes)) (sourceForms no)
  | .discard => .discard
  | .leave => .leave

/-- Statements as they are read back. -/
def sourceForms : List Statement → List SourceStatement
  | [] => []
  | s :: ss => sourceForm s :: sourceForms ss

end

mutual

/-- Where everything is defined, a statement that is read back is the one with its expressions. -/
theorem resolve_sourceForm (s : Statement) :
    (sourceForm s).resolve (fun _ => true) = [s.mapExprs readForm] := by
  -- The guard of a region holds, so the region resolves to the statements that it was made of.
  match s with
  | .declare _ initial =>
    cases initial <;> simp [sourceForm, SourceStatement.resolve, Statement.mapExprs]
  | .assign _ _ _ | .evaluate _ | .discard | .leave =>
    simp [sourceForm, SourceStatement.resolve, Statement.mapExprs]
  -- The blocks of a conditional were put into regions of their own.
  | .ifThen _ yes =>
    simp [sourceForm, regionOf, SourceStatement.resolve, resolveAll, Guard.holds,
      Statement.mapExprs, resolveAll_sourceForms yes]
  | .ifThenElse _ yes no =>
    simp [sourceForm, regionOf, SourceStatement.resolve, resolveAll, Guard.holds,
      Statement.mapExprs, resolveAll_sourceForms yes, resolveAll_sourceForms no]

/-- Where everything is defined, statements that are read back are those with their expressions. -/
theorem resolveAll_sourceForms (ss : List Statement) :
    resolveAll (fun _ => true) (sourceForms ss) = mapExprsAll readForm ss := by
  -- One statement after the other, none of which resolves to more than one.
  match ss with
  | [] => rfl
  | s :: ss =>
    simp [sourceForms, resolveAll, mapExprsAll, resolve_sourceForm s, resolveAll_sourceForms ss]

end

/-- Statements that are read back alike have the same expressions but for the names of calls. -/
theorem renamed_of_sourceForms {ss ss' : List Statement} (same : sourceForms ss = sourceForms ss') :
    mapExprsAll Expr.renamed ss = mapExprsAll Expr.renamed ss' := by
  -- Resolving what is read and giving fields back their objects leaves the renamed calls only.
  have undone : ∀ ss, mapExprsAll Expr.unshielded (resolveAll (fun _ => true) (sourceForms ss)) =
      mapExprsAll Expr.renamed ss := by
    intro ss
    have unshielded : Expr.unshielded ∘ readForm = Expr.renamed :=
      funext Expr.unshielded_renamed_shielded
    rw [resolveAll_sourceForms, mapExprsAll_mapExprsAll, unshielded]
  rw [← undone, same, undone]

/-- The characters start no block. -/
def NoBlock (chars : List Char) : Prop :=
  '\x7b' ∉ chars.head?

/-- Written characters that stand in a source are cut into words up to the rest of them. -/
def Reads (written : List Char) (words : List Token) (rest : List Char) : Prop :=
  Cuts 1 (asSource written) words (asSource rest)

namespace Reads

variable {written between rest : List Char} {words more : List Token}

/-- No words are read from nothing. -/
theorem none : Reads rest [] rest :=
  -- Reading is cutting, which may stop before the first word.
  Cuts.none

/-- The words of two parts are those of the first and then those of the second. -/
theorem append (before : Reads written words between) (after : Reads between more rest) :
    Reads written (words ++ more) rest :=
  -- Cuts of adjoining parts are joined.
  Cuts.append before after

/-- A symbol is read in front of what is no part of it. -/
theorem sign (s : Symbol) (noPoint : s ≠ .dot) (apart : Apart s (asSource written))
    (reads : Reads written words rest) :
    Reads (s.spelling.toList ++ written) (Grammar.sign s 1 :: words) rest := by
  -- All symbols but the point are written in the source as they are.
  unfold Reads
  rw [asSource_sign noPoint]
  exact Cuts.sign s apart reads

/-- A blank is skipped. -/
theorem blank (reads : Reads written words rest) : Reads (' ' :: written) words rest := by
  -- A blank stands for itself in the source.
  unfold Reads
  rw [asSource_blank]
  exact Cuts.blank reads

/-- The end of a line is skipped where no block starts. -/
theorem feed (noBlock : NoBlock written) (reads : Reads written words rest) :
    Reads ('\n' :: written) words rest := by
  -- Without a brace behind it, the end of a line is turned into a blank.
  unfold Reads
  rw [asSource_newline, if_neg (mt Option.mem_def.mpr noBlock)]
  exact Cuts.blank reads

/-- A name is read in front of what ends it. -/
theorem name {name : String} (isName : IsName name) (ends : EndsRun (asSource written))
    (reads : Reads written words rest) :
    Reads (name.toList ++ written) (Grammar.word name 1 :: words) rest := by
  -- No character of a name is changed in the source.
  unfold Reads
  rw [asSource_plain (isPlain_name isName)]
  exact Cuts.next (next_name isName ends) rfl reads

/-- A block that starts in a block is read as a region. -/
theorem region (reads : Reads ('\x7b' :: written) words rest) :
    Reads ('\n' :: '\x7b' :: written)
      (Grammar.word "ifdef" 1 :: Grammar.word "on" 1 :: words) rest := by
  have test : IsName "ifdef" := isName_spelling .ifDefined
  have key : IsName "on" := ⟨⟨_, _, rfl, rfl⟩, List.all_eq_true.mp rfl, by decide, by decide⟩
  -- The end of the line stands for the test that the region depends on.
  have tested : asSource ('\n' :: '\x7b' :: written) =
      ' ' :: ("ifdef".toList ++ ' ' :: ("on".toList ++ ' ' :: asSource ('\x7b' :: written))) := by
    simp [asSource_newline]
  unfold Reads
  rw [tested]
  exact .blank (.next (next_name test (endsWords_blank _).run) rfl
    (.blank (.next (next_name key (endsWords_blank _).run) rfl (.blank reads))))

end Reads

/-- Words end in front of what is written, and of what stands in a source for it. -/
structure Ends (after : List Char) : Prop where
  written : EndsWords after
  source : EndsWords (asSource after)

/-- Words end in front of a symbol. -/
theorem ends_sign {s : Symbol} (noPoint : s ≠ .dot) (rest : List Char) :
    Ends (s.spelling.toList ++ rest) := by
  -- The word in front ends both in the text and in the source that it stands for.
  refine ⟨endsWords_sign noPoint rest, ?_⟩
  rw [asSource_sign noPoint]
  exact endsWords_sign noPoint _

/-- Words end in front of a blank. -/
theorem ends_blank (rest : List Char) : Ends (' ' :: rest) := by
  -- A blank stands for itself, so that it ends the word on both sides as well.
  refine ⟨endsWords_blank rest, ?_⟩
  rw [asSource_blank]
  exact endsWords_blank _

/-- A written expression is read as its form in a source, also behind a symbol. -/
theorem expression_reads {e : Expr} (valid : e.Valid) : ∃ words room,
    (∀ {s after}, EndsRun after → Apart s (asSource (chars (exprMarks e) ++ after))) ∧
    (∀ after, Ends after → Reads (chars (exprMarks e) ++ after) words after) ∧
    ∀ rest, (ExprPhrase.expression (readForm e)).Spans room (words ++ rest) rest := by
  obtain ⟨words, room, opens, cuts, spans⟩ :=
    (@readsBack 1 _ valid.shielded valid.noIntegerField_shielded).expression
  -- The text is that of the expression with its fields kept apart, which reads back.
  refine ⟨words, room, fun ends => ?_, fun after ends => ?_, spans⟩
  · rw [exprMarks_standAs valid _ ends]
    exact .inr (.inr (opens _))
  · unfold Reads
    rw [exprMarks_standAs valid after ends.written.run]
    exact cuts _ ends.source

/-- The phrase that a statement is read as, which behind `else` needs no block if it is an `if`. -/
def statementPhrase (s : Statement) : BodyPhrase :=
  if s.isSelection then .selection (sourceForm s) else .statement (sourceForm s)

/-- A written statement is read as its form in a source. -/
def StatementReads (s : Statement) : Prop :=
  ∃ words room,
    (∀ after, NoBlock (chars (statementMarks s) ++ after)) ∧
    (∀ after, NoBlock after → Reads (chars (statementMarks s) ++ after) words after) ∧
    ∀ rest, (statementPhrase s).Spans room (words ++ rest) rest

/-- Written statements in front of a brace are read as those of a block or of a region. -/
def BlockReads (ss : List Statement) : Prop :=
  ∃ words room,
    (∀ after, NoBlock after → NoBlock (chars (blockMarks ss) ++ after)) ∧
    (∀ after, NoBlock after → Reads (chars (blockMarks ss) ++ after) words after) ∧
    (∀ rest, (BodyPhrase.blockEnd (sourceForms ss)).Spans room
      (words ++ sign .rightBrace 1 :: rest) rest) ∧
    ∀ rest, (BodyPhrase.region (sourceForms ss)).Spans room
      (words ++ sign .rightBrace 1 :: rest) rest

/-- Statements are read when each of them is. -/
theorem blockReads {ss : List Statement} (each : ∀ s ∈ ss, StatementReads s) : BlockReads ss := by
  -- Along the statements, each of which is followed by a statement or by the brace.
  induction ss with
  | nil =>
    refine ⟨[], 0, fun after noBlock => by simpa [blockMarks] using noBlock, ?_, ?_, ?_⟩
    · intro after _
      simpa [blockMarks] using Reads.none
    · exact fun rest => .endBlock
    · exact fun rest => .endRegion
  | cons s ss ih =>
    obtain ⟨first, others⟩ := List.forall_mem_cons.mp each
    obtain ⟨words, room, opens, reads, spans⟩ := first
    obtain ⟨wordsMore, roomMore, opensMore, readsMore, blockMore, regionMore⟩ := ih others
    -- Every phrase of a statement counts as one, be it a selection or a plain statement.
    have statement : ∀ rest,
        (BodyPhrase.statement (sourceForm s)).Spans room (words ++ rest) rest := by
      intro rest
      have spans := spans rest
      unfold statementPhrase at spans
      split at spans
      · exact .selected spans
      · exact spans
    -- Behind a statement of a region, the others may be nested one level deeper.
    refine ⟨words ++ wordsMore, max room roomMore + 1, ?_, ?_, ?_, ?_⟩
    · intro after _
      simpa [blockMarks] using opens _
    · intro after noBlock
      have behind := (reads _ (opensMore after noBlock)).append (readsMore after noBlock)
      simpa [blockMarks] using behind
    · intro rest
      -- The limit is large enough for the first statement and for all others.
      have first := (statement (wordsMore ++ sign .rightBrace 1 :: rest)).mono
        (Nat.le_succ_of_le (Nat.le_max_left room roomMore))
      have more := (blockMore rest).mono (Nat.le_succ_of_le (Nat.le_max_right room roomMore))
      simpa [sourceForms] using BodyPhrase.Spans.nextInBlock first more
    · intro rest
      have first := (statement (wordsMore ++ sign .rightBrace 1 :: rest)).mono
        (Nat.le_max_left room roomMore)
      have more := (regionMore rest).mono (Nat.le_succ_of_le (Nat.le_max_right room roomMore))
      simpa [sourceForms] using BodyPhrase.Spans.nextInRegion first more

/-- A blank is no part of a symbol before it. -/
theorem apart_blank (s : Symbol) (rest : List Char) : Apart s (asSource (' ' :: rest)) := by
  -- A blank continues no symbol at all.
  rw [asSource_blank]
  exact .inr (.inr (by simp [EndsSymbol]))

/-- The end of a line stands as a blank, which may have others behind it. -/
theorem asSource_feed (rest : List Char) : ∃ more, asSource ('\n' :: rest) = ' ' :: more := by
  -- Whether a brace is next only decides about what stands behind the blank.
  rw [asSource_newline]
  split
  · exact ⟨_, rfl⟩
  · exact ⟨_, rfl⟩

/-- The end of a line is no part of a symbol before it. -/
theorem apart_feed (s : Symbol) (rest : List Char) : Apart s (asSource ('\n' :: rest)) := by
  -- In the source there is a blank in its place.
  obtain ⟨more, same⟩ := asSource_feed rest
  rw [same]
  exact .inr (.inr (by simp [EndsSymbol]))

/-- A symbol at the end of a line is read. -/
theorem Reads.lastSign {s : Symbol} (noPoint : s ≠ .dot) {after : List Char}
    (noBlock : NoBlock after) :
    Reads (s.spelling.toList ++ '\n' :: after) [Grammar.sign s 1] after :=
  -- Behind the symbol there is only the end of the line, which is skipped.
  .sign s noPoint (apart_feed s after) (.feed noBlock .none)

/-- A block stands between braces on lines of their own. -/
theorem chars_compound (marks : List Mark) :
    chars (compound marks) = '\x7b' :: ('\n' :: (chars marks ++ ['\x7d', '\n'])) := by
  -- The two braces and their line feeds are put together.
  simp [compound]

/-- A block between braces is read, and so is a region between the same braces. -/
theorem BlockReads.compound {ss : List Statement} (reads : BlockReads ss) : ∃ words room,
    (∀ after, NoBlock after → Reads (chars (compound (blockMarks ss)) ++ after) words after) ∧
    (∀ rest, (BodyPhrase.block (sourceForms ss)).Spans room (words ++ rest) rest) ∧
    ∀ rest, ∃ inner, words ++ rest = sign .leftBrace 1 :: inner ∧
      (BodyPhrase.region (sourceForms ss)).Spans room inner rest := by
  -- One more level is needed for the braces.
  obtain ⟨words, room, opens, reads, block, region⟩ := reads
  refine ⟨sign .leftBrace 1 :: (words ++ [sign .rightBrace 1]), room + 1, ?_, ?_, ?_⟩
  · intro after noBlock
    -- From the closing brace to the opening one.
    have noBrace : NoBlock (Symbol.rightBrace.spelling.toList ++ '\n' :: after) := by
      simp [NoBlock, Symbol.spelling]
    have closes := (reads _ noBrace).append (.lastSign (by decide) noBlock)
    have whole := Reads.sign .leftBrace (by decide) (apart_feed _ _)
      (.feed (opens _ noBrace) closes)
    simpa [Glsl.compound, Symbol.spelling] using whole
  · intro rest
    simpa using BodyPhrase.Spans.block (block rest)
  · intro rest
    exact ⟨words ++ sign .rightBrace 1 :: rest, by simp, (region rest).mono (Nat.le_succ room)⟩

/-- The block behind a condition is read as one that holds a region. -/
theorem BlockReads.guarded {ss : List Statement} (reads : BlockReads ss) : ∃ words room,
    (∀ after more, asSource after = ' ' :: more →
      Reads ('\x7b' :: '\n' :: (chars (Glsl.compound (blockMarks ss)) ++ '\x7d' :: after)) words
        after) ∧
    ∀ rest, (BodyPhrase.block (regionOf (sourceForms ss))).Spans room (words ++ rest) rest := by
  obtain ⟨words, room, reads, -, region⟩ := reads.compound
  refine ⟨sign .leftBrace 1 :: Grammar.word "ifdef" 1 :: Grammar.word "on" 1 ::
    (words ++ [sign .rightBrace 1]), room + 1, ?_, ?_⟩
  · intro after more blank
    -- The outer braces hold the region, and its own braces are those of the inner block.
    have noBrace : NoBlock (Symbol.rightBrace.spelling.toList ++ after) := by
      simp [NoBlock, Symbol.spelling]
    have apart : Apart .rightBrace (asSource after) := by
      rw [blank]
      exact .inr (.inr (by simp [EndsSymbol]))
    have closes := (reads _ noBrace).append (.sign .rightBrace (by decide) apart .none)
    rw [chars_compound] at closes ⊢
    have whole := Reads.sign .leftBrace (by decide) (apart_feed _ _) closes.region
    simpa [Symbol.spelling] using whole
  · intro rest
    obtain ⟨inner, same, spans⟩ := region (sign .rightBrace 1 :: rest)
    -- The region is the only statement of the outer block.
    have conditional : (BodyPhrase.conditional (.choice ⟨"on", true⟩ (sourceForms ss) [])).Spans
        room (Grammar.word "ifdef" 1 :: Grammar.word "on" 1 :: (words ++ sign .rightBrace 1 :: rest))
        (sign .rightBrace 1 :: rest) := by
      rw [same]
      exact .conditional rfl spans .without
    simpa [regionOf] using BodyPhrase.Spans.block (.nextInBlock (.tested conditional) .endBlock)

/-- A condition is read up to the block that depends on it. -/
theorem condition_reads {e : Expr} (valid : e.Valid) : ∃ words room,
    (∀ {written wordsAfter rest}, Reads ('\x7b' :: written) wordsAfter rest →
      Reads ("if (".toList ++ (chars (exprMarks e) ++ (") ".toList ++ '\x7b' :: written)))
        (Grammar.word "if" 1 :: sign .leftParen 1 :: (words ++ sign .rightParen 1 :: wordsAfter))
        rest) ∧
    ∀ rest, (ExprPhrase.expression (readForm e)).Spans room (words ++ rest) rest := by
  obtain ⟨words, room, opens, reads, spans⟩ := expression_reads valid
  refine ⟨words, room, fun {written wordsAfter rest} behind => ?_, spans⟩
  have keyword : IsName "if" := isName_spelling .selection
  -- From the closing parenthesis to the keyword in front.
  have closes := Reads.sign .rightParen (by decide) (.inl rfl) behind.blank
  have inParens := (reads _ (ends_sign (by decide) _)).append closes
  have atParen := Reads.sign .leftParen (by decide) (opens (endsRun_sign .rightParen _)) inParens
  have atKeyword := Reads.name keyword (ends_blank _).source.run atParen.blank
  simpa [Symbol.spelling] using atKeyword

end Glsl

end Shading

import Shading.Proofs.Glsl.Lossless

/-! What a written text declares outside of its function: of uniforms, just those of the program. -/

namespace Shading.Glsl

open Cursor Grammar

/-- The number of open braces behind a character. -/
def openBraces (depth : Nat) (c : Char) : Nat :=
  if c = '\x7b' then depth + 1 else if c = '\x7d' then depth - 1 else depth

/-- The lines that end outside of braces, where a part of the first line was read before. -/
def outerLinesFrom (depth : Nat) (read : List Char) : List Char → List String
  | [] => []
  | c :: rest =>
    if c = '\n' then
      if depth = 0 then String.ofList read :: outerLinesFrom depth [] rest
      else outerLinesFrom depth [] rest
    else outerLinesFrom (openBraces depth c) (read ++ [c]) rest

/-- The lines of a text that end outside of braces. -/
def outerLines (text : List Char) : List String :=
  outerLinesFrom 0 [] text

/-- The global declarations of a text of a version: what is outside of braces behind the version. -/
def globals (version : Version) (text : String) : List String :=
  -- The profile is whatever the settings say, and no declaration even if it looks like one.
  outerLines (text.toList.drop (render (versionMarks version)).length)

/-- The global declaration of a uniform. -/
def uniformLine (type : DataType) (name : String) : String :=
  "uniform " ++ typeWord type ++ " " ++ name ++ ";"

/-- Characters that neither end a line nor open or close a brace. -/
def IsInline (run : List Char) : Prop :=
  ∀ c ∈ run, c ≠ '\n' ∧ c ≠ '\x7b' ∧ c ≠ '\x7d'

/-- A name that can stand within a line. -/
abbrev IsInlineName (name : String) : Prop :=
  IsInline name.toList

/-- A program whose names can all stand within lines, whether it was read from a source or not. -/
def HasInlineNames (program : Program) : Prop :=
  program.All (Expr.Named IsInlineName) (fun _ => True) fun d => IsInlineName d.name

variable {run rest : List Char} {marks more : List Mark} {e : Expr} {version : Version}
  {program : Program}

@[simp] theorem isInline_nil : IsInline [] := by
  -- There is no character to look at.
  simp [IsInline]

@[simp] theorem isInline_cons {c : Char} :
    IsInline (c :: run) ↔ (c ≠ '\n' ∧ c ≠ '\x7b' ∧ c ≠ '\x7d') ∧ IsInline run :=
  -- Being inline is a condition on each character.
  List.forall_mem_cons

@[simp] theorem isInline_append {left right : List Char} :
    IsInline (left ++ right) ↔ IsInline left ∧ IsInline right :=
  -- Being inline is a condition on each character.
  List.forall_mem_append

/-- What names and numbers are made of is inline. -/
theorem isInline_of_continues (continues : ∀ c ∈ run, continuesName c = true) : IsInline run := by
  -- No line feed and no brace continues a name.
  intro c member
  have := continues c member
  refine ⟨?_, ?_, ?_⟩ <;> rintro rfl <;> exact absurd this (by decide)

/-- The digits of a number are inline. -/
theorem isInline_digits (digits : ∀ c ∈ run, c.isDigit = true) : IsInline run :=
  -- Digits are among the characters of names.
  isInline_of_continues fun c member => continues_of_isDigit (digits c member)

/-- A written number is inline. -/
theorem isInline_repr (n : Nat) : IsInline n.repr.toList := by
  -- A natural number is written with digits alone.
  rw [Nat.toList_repr]
  exact isInline_digits (isDigit_toDigits n)

/-- A name is inline. -/
theorem isInlineName_of_isName {name : String} (isName : IsName name) : IsInlineName name :=
  -- The characters of a name are those that names are made of.
  isInline_of_continues isName.continues

/-- What is called is inline. -/
theorem isInline_callee {name : String} (inline : IsInlineName name) :
    IsInline (callee name).toList := by
  -- The two functions that are renamed have names like all others.
  unfold callee
  split
  · exact isInline_of_continues (List.all_eq_true.mp rfl)
  · split
    · exact isInline_of_continues (List.all_eq_true.mp rfl)
    · exact inline

/-- A written float is inline, even if it is none that a source can hold. -/
theorem isInline_floatLiteral (x : Binary32) : IsInline (floatLiteral x).toList := by
  have digits : IsInline x.shortest.plain := by
    rcases Int.lt_or_le x.shortest.exponent 0 with places | whole
    · obtain ⟨whole, fraction, same, -, digits, digits', -⟩ := Decimal.plain_of_neg places
      simp [same, isInline_digits digits, isInline_digits digits']
    · exact isInline_digits (Decimal.plain_of_nonneg whole).2.1
  -- Around the digits there are a sign and a point at most, and words stand for what has no digits.
  have characters : IsInline x.plain := by
    unfold Binary32.plain
    split
    · simp
    · split <;> split <;> simp [digits]
  -- A point is added to an integral number.
  unfold floatLiteral
  split <;> simp [characters]

/-- The word for a type is inline. -/
theorem isInline_typeWord (type : DataType) : IsInline (typeWord type).toList :=
  -- The word for a type is a name in the written language.
  isInline_of_continues (typeWord_continues type)

/-- Parentheses leave marks inline. -/
@[simp] theorem isInline_wrap {needed : Bool} :
    IsInline (chars (wrap needed marks)) ↔ IsInline (chars marks) := by
  -- A parenthesis is neither a line feed nor a brace.
  cases needed <;> simp [wrap]

/-- The arguments of a call are inline when each of them is. -/
theorem isInline_arguments {es : List Expr} (each : ∀ e ∈ es, IsInline (chars (exprMarks e))) :
    IsInline (chars (argumentMarks es)) := by
  -- Between two arguments there is a comma with a blank.
  induction es with
  | nil => simp [argumentMarks]
  | cons e es ih =>
    obtain ⟨first, others⟩ := List.forall_mem_cons.mp each
    cases es with
    | nil => simpa [argumentMarks] using first
    | cons e' es => simpa [argumentMarks, first] using ih others

/-- The marks of an expression with inline names are inline. -/
theorem isInline_exprMarks (named : e.Named IsInlineName) : IsInline (chars (exprMarks e)) := by
  -- All that is written besides names is spelled without line feeds and braces.
  induction named with
  -- The sign of a negative integer is inline as well.
  | @int value =>
    cases value with
    | ofNat value =>
      have digits : IsInline (Int.repr value).toList := isInline_repr value
      simpa [exprMarks] using digits
    | negSucc value =>
      have digits := isInline_repr (value + 1)
      simpa [exprMarks, Int.repr] using digits
  | float => simpa [exprMarks] using isInline_floatLiteral _
  | @bool value => cases value <;> simp [exprMarks]
  | named inline => simpa [exprMarks] using inline
  | @unary op _ _ ih => cases op <;> simp [exprMarks, UnaryOp.symbol, Symbol.spelling, ih]
  | @binary op _ _ _ _ left right =>
    cases op <;> simp [exprMarks, BinaryOp.symbol, Symbol.spelling, left, right]
  | ternary _ _ _ condition yes no => simp [exprMarks, condition, yes, no]
  | call inline _ each => simp [exprMarks, isInline_callee inline, isInline_arguments each]
  | field _ inline object => simp [exprMarks, object, inline]
  | index _ _ object position => simp [exprMarks, object, position]

section Functions

/-- Marks inside of braces that close all braces they open, and no others. -/
def Balanced (marks : List Mark) : Prop :=
  ∀ depth read rest, ∃ read', outerLinesFrom (depth + 1) read (chars marks ++ rest) =
    outerLinesFrom (depth + 1) read' rest

/-- Inline characters are all read into one line. -/
theorem outerLinesFrom_inline (inline : IsInline run) (depth : Nat) (read rest : List Char) :
    outerLinesFrom depth read (run ++ rest) = outerLinesFrom depth (read ++ run) rest := by
  -- One character after the other goes to the line, as none ends it or moves the depth.
  induction run generalizing read with
  | nil => simp
  | cons c run ih =>
    obtain ⟨⟨noFeed, noOpen, noClose⟩, inline⟩ := isInline_cons.mp inline
    simp [outerLinesFrom, openBraces, noFeed, noOpen, noClose, ih inline]

/-- Inline marks open and close no braces. -/
theorem balanced_of_isInline (inline : IsInline (chars marks)) : Balanced marks :=
  -- Within braces the whole run is read into the current line.
  fun depth read rest => ⟨_, outerLinesFrom_inline inline (depth + 1) read rest⟩

/-- An end of a line opens and closes no braces. -/
theorem balanced_newline : Balanced [.newline] :=
  -- Within braces the end of a line ends no outer line.
  fun depth read rest => ⟨[], by simp [outerLinesFrom]⟩

/-- Balanced marks may follow one another. -/
theorem Balanced.append (before : Balanced marks) (after : Balanced more) :
    Balanced (marks ++ more) := by
  -- What the first marks leave of the line is what the others start from.
  intro depth read rest
  obtain ⟨between, readBefore⟩ := before depth read (chars more ++ rest)
  obtain ⟨read', readAfter⟩ := after depth between rest
  exact ⟨read', by rw [chars_append, List.append_assoc, readBefore, readAfter]⟩

/-- Braces around balanced marks are balanced. -/
theorem Balanced.braced (balanced : Balanced marks) :
    Balanced (.token "\x7b" :: marks ++ [.token "\x7d"]) := by
  -- Between its braces the depth is one more, and behind them it is back.
  intro depth read rest
  obtain ⟨inner, readInner⟩ := balanced (depth + 1) (read ++ ['\x7b']) ('\x7d' :: rest)
  refine ⟨inner ++ ['\x7d'], ?_⟩
  simpa [outerLinesFrom, openBraces] using readInner

/-- Marks between braces on lines of their own are balanced. -/
theorem Balanced.compound (balanced : Balanced marks) : Balanced (compound marks) := by
  -- The line feeds stand within braces or inside of the compound, and end no outer line.
  have all := (balanced_newline.append balanced).braced.append balanced_newline
  simpa [Glsl.compound] using all

/-- What depends on a condition is balanced when it is between the braces. -/
theorem Balanced.guarded (inline : IsInline (chars (exprMarks e))) (balanced : Balanced marks) :
    Balanced (conditionMarks e ++ marks ++ [.token "\x7d"]) := by
  -- The condition in front of the braces is inline.
  have test : Balanced (.token "if" :: .space :: .token "(" :: exprMarks e ++ [.token ")", .space]) :=
    balanced_of_isInline (by simpa using inline)
  have all := test.append (balanced_newline.append balanced).braced
  simpa [conditionMarks] using all

/-- A block is balanced when each of its statements is. -/
theorem balanced_block {ss : List Statement} (each : ∀ s ∈ ss, Balanced (statementMarks s)) :
    Balanced (blockMarks ss) := by
  -- One statement after the other, each of which keeps the depth.
  induction ss with
  | nil => exact balanced_of_isInline (by simp [blockMarks])
  | cons s ss ih =>
    obtain ⟨first, others⟩ := List.forall_mem_cons.mp each
    rw [blockMarks]
    exact first.append (ih others)

/-- An alternative is balanced when each of its statements is. -/
theorem balanced_alternative {ss : List Statement} (each : ∀ s ∈ ss, Balanced (statementMarks s)) :
    Balanced (alternativeMarks ss) := by
  -- An alternative that is a single selection goes on behind the else, and all others are blocks.
  cases ss with
  | nil => exact (balanced_of_isInline (by simp)).compound
  | cons s ss =>
    rw [alternativeMarks]
    split
    · exact each s (by simp)
    · exact (balanced_block each).compound

/-- The marks of a statement with inline names are balanced. -/
theorem balanced_statement {assigned : Expr → Prop} {s : Statement}
    (all : s.All (Expr.Named IsInlineName) assigned fun d => IsInlineName d.name) :
    Balanced (statementMarks s) := by
  -- A statement that holds no others is a line.
  have line : ∀ {marks : List Mark}, IsInline (chars marks) → Balanced (marks ++ [.newline]) :=
    fun inline => (balanced_of_isInline inline).append balanced_newline
  induction all with
  | @declare d name =>
    have inline : IsInline (chars [.token (typeWord d.type), .space, .token d.name, .token ";"]) := by
      simp [isInline_typeWord, name]
    -- Each kind of line is inline but for its end.
    simpa [statementMarks] using line inline
  | @initialise d initial name named =>
    have inline : IsInline (chars (.token (typeWord d.type) :: .space :: .token d.name :: .space ::
        .token "=" :: .space :: exprMarks initial ++ [.token ";"])) := by
      simp [isInline_typeWord, name, isInline_exprMarks named]
    simpa [statementMarks] using line inline
  | @assign target op value _ named namedValue =>
    have inline : IsInline (chars (exprMarks target ++ .space :: .token op.symbol.spelling ::
        .space :: exprMarks value ++ [.token ";"])) := by
      cases op <;> simp [AssignOp.symbol, Symbol.spelling, isInline_exprMarks named,
        isInline_exprMarks namedValue]
    simpa [statementMarks] using line inline
  | @evaluate e named =>
    have inline : IsInline (chars (exprMarks e ++ [.token ";"])) := by
      simp [isInline_exprMarks named]
    simpa [statementMarks] using line inline
  -- The braces of a block are balanced around statements that are balanced themselves.
  | ifThen named _ yes =>
    have inline := isInline_exprMarks named
    have all := (Balanced.guarded inline (balanced_block yes).compound).append balanced_newline
    simpa [statementMarks] using all
  | @ifThenElse condition _ _ named _ _ yes no =>
    have inline := isInline_exprMarks named
    have otherwise : Balanced [.space, .token "else", .space] := balanced_of_isInline (by simp)
    have all := (Balanced.guarded inline (balanced_block yes).compound).append
      (otherwise.append (balanced_alternative no))
    simpa [statementMarks] using all
  -- These two are lines of fixed words.
  | discard =>
    have inline : IsInline (chars [.token "discard", .token ";"]) := by simp
    simpa [statementMarks] using line inline
  | leave =>
    have inline : IsInline (chars [.token "return", .space, .token ";"]) := by simp
    simpa [statementMarks] using line inline

/-- Outside of the function of a stage there is only the end of its last line. -/
theorem outerLines_main {body : List Statement} (balanced : Balanced (blockMarks body)) :
    ∃ read, outerLines (chars (mainMarks body)) = [String.ofList (read ++ ['\x7d'])] := by
  obtain ⟨read, inside⟩ := balanced 0 [] ['\x7d', '\n']
  refine ⟨read, ?_⟩
  -- What is between the braces is passed over, and the closing one is on a line with nothing else.
  have heading : IsInline "void main() ".toList := by simp
  have text : chars (mainMarks body) =
      "void main() ".toList ++ '\x7b' :: '\n' :: (chars (blockMarks body) ++ ['\x7d', '\n']) := by
    simp [mainMarks, compound]
  rw [outerLines, text, outerLinesFrom_inline heading]
  simpa [outerLinesFrom, openBraces] using inside

end Functions

section Sections

/-- The marks of a single line. -/
def IsOneLine (marks : List Mark) : Prop :=
  ∃ run, IsInline run ∧ chars marks = run ++ ['\n']

/-- What is put in front of a line is part of it. -/
theorem IsOneLine.behind (isOneLine : IsOneLine more) (inline : IsInline (chars marks)) :
    IsOneLine (marks ++ more) := by
  -- The line feed at the end is that of the line behind.
  obtain ⟨run, inlineRun, ends⟩ := isOneLine
  exact ⟨chars marks ++ run, isInline_append.mpr ⟨inline, inlineRun⟩, by simp [ends]⟩

/-- A declaration is a line. -/
theorem isOneLine_qualified {qualifiers : List String} {d : Declaration}
    (name : IsInlineName d.name) (inline : ∀ qualifier ∈ qualifiers, IsInline qualifier.toList) :
    IsOneLine (qualified qualifiers d) := by
  have before : IsInline (chars (qualifiers.flatMap fun q => [.token q, .space])) := by
    induction qualifiers with
    | nil => simp
    | cons q qualifiers ih =>
      obtain ⟨first, others⟩ := List.forall_mem_cons.mp inline
      simpa [first] using ih others
  -- Qualifiers, type and name stand in front of the only line feed.
  have ends : IsOneLine [.newline] := ⟨[], by simp, by simp⟩
  have declares : IsInline (chars [.token (typeWord d.type), .space, .token d.name, .token ";"]) := by
    simp [isInline_typeWord, name]
  exact (ends.behind declares).behind before

/-- A declaration at a location is a line. -/
theorem isOneLine_located {location : Nat} {qualifier : String} {d : Declaration}
    (name : IsInlineName d.name) (inline : IsInline qualifier.toList) :
    IsOneLine (located location qualifier d) := by
  -- The location stands in front of the declaration, and its number is inline.
  have number := isInline_digits (isDigit_toDigits location)
  have place : IsInline (chars [.token "layout", .token "(", .token "location", .token "=",
      .token location.repr, .token ")", .space]) := by
    simp [number]
  have declares : IsOneLine (qualified [qualifier] d) := isOneLine_qualified name (by simpa using inline)
  simpa only [located, List.cons_append, List.nil_append] using declares.behind place

/-- The text of a line, without its end. -/
def lineText (marks : List Mark) : String :=
  String.ofList (chars marks).dropLast

/-- A line is its text and its end. -/
theorem IsOneLine.lineText_eq_iff (isOneLine : IsOneLine marks) {text : String} :
    lineText marks = text ↔ chars marks = text.toList ++ ['\n'] := by
  -- The text of a line is all of it but the line feed.
  obtain ⟨run, -, ends⟩ := isOneLine
  rw [lineText, ends, List.dropLast_concat, ← String.toList_inj, String.toList_ofList,
    List.append_cancel_right_eq]

/-- Lines stand outside of braces one after the other. -/
theorem outerLines_flatten {lines : List (List Mark)} (each : ∀ l ∈ lines, IsOneLine l) :
    outerLines (chars lines.flatten ++ rest) = lines.map lineText ++ outerLines rest := by
  -- Line by line.
  induction lines with
  | nil => simp
  | cons l lines ih =>
    obtain ⟨⟨run, inline, ends⟩, others⟩ := List.forall_mem_cons.mp each
    -- The first line ends at its own line feed, before all others.
    have first : outerLines (chars l ++ (chars lines.flatten ++ rest)) =
        lineText l :: outerLines (chars lines.flatten ++ rest) := by
      rw [lineText, ends, List.dropLast_concat, outerLines, List.append_assoc,
        outerLinesFrom_inline inline]
      simp [outerLinesFrom, outerLines]
    rw [List.flatten_cons, chars_append, List.append_assoc, first, ih others, List.map_cons,
      List.cons_append]

/-- A section stands outside of braces, with an empty line behind it. -/
theorem outerLines_paragraph {lines : List (List Mark)} (each : ∀ l ∈ lines, IsOneLine l) :
    outerLines (chars (paragraph lines) ++ rest) =
      lines.map lineText ++ (if lines.isEmpty then [] else [""]) ++ outerLines rest := by
  cases lines with
  | nil => simp [paragraph]
  | cons l lines =>
    -- The empty line is the line feed behind a section that is there.
    have empty : outerLines ('\n' :: rest) = "" :: outerLines rest := by
      simp [outerLines, outerLinesFrom]
    have whole : chars (paragraph (l :: lines)) ++ rest =
        chars (l :: lines).flatten ++ '\n' :: rest := by
      simp [paragraph]
    rw [whole, outerLines_flatten each, empty]
    simp

/-- The lines of a section, other than the empty one behind it, are those that it is made of. -/
theorem mem_outerLines_paragraph {lines : List (List Mark)} (each : ∀ l ∈ lines, IsOneLine l)
    {text : String} (some : text ≠ "") : text ∈ outerLines (chars (paragraph lines) ++ rest) ↔
      (∃ l ∈ lines, chars l = text.toList ++ ['\n']) ∨ text ∈ outerLines rest := by
  -- The empty line behind a section is not the text in question.
  have noSpace : text ∉ if lines.isEmpty then [] else [""] := by
    split <;> simp [some]
  rw [outerLines_paragraph each, List.mem_append, List.mem_append, or_iff_left noSpace,
    List.mem_map]
  refine or_congr_left (exists_congr fun l => and_congr_right fun member => ?_)
  exact (each l member).lineText_eq_iff

/-- The marks of a uniform are its global declaration. -/
theorem chars_uniform (d : Declaration) :
    chars (qualified ["uniform"] d) = (uniformLine d.type d.name).toList ++ ['\n'] := by
  -- The word, the type and the name are spelled out on both sides.
  simp [qualified, uniformLine]

/-- Global declarations of uniforms tell types and names apart, whatever the names are. -/
theorem uniformLine_injective {type type' : DataType} {name name' : String}
    (same : uniformLine type name = uniformLine type' name') : type = type' ∧ name = name' := by
  have characters := congrArg String.toList same
  simp only [uniformLine, String.toList_append, List.append_assoc,
    List.append_cancel_left_eq] at characters
  -- The type goes up to the first blank behind it, and the name up to the end.
  obtain ⟨types, names⟩ := run_cancel (typeWord_continues type) (typeWord_continues type')
    (by decide) characters
  exact ⟨typeWord_injective (String.toList_inj.mp types),
    String.toList_inj.mp (List.append_cancel_right names)⟩

variable {type : DataType} {name : String}

/-- The uniforms stand outside of braces. -/
theorem mem_outerLines_uniforms {ds : List Declaration} (named : ∀ d ∈ ds, IsInlineName d.name) :
    uniformLine type name ∈ outerLines (chars (uniformMarks ds) ++ rest) ↔
      ⟨type, name⟩ ∈ ds ∨ uniformLine type name ∈ outerLines rest := by
  -- Each declaration of a uniform is one line.
  have each : ∀ l ∈ ds.map (qualified ["uniform"]), IsOneLine l := by
    intro l member
    obtain ⟨d, among, rfl⟩ := List.mem_map.mp member
    exact isOneLine_qualified (named d among) (by simp)
  rw [uniformMarks, mem_outerLines_paragraph each (by simp [uniformLine])]
  -- The line of a uniform tells its type and its name.
  refine or_congr_left ⟨?_, fun member => ?_⟩
  · rintro ⟨l, member, same⟩
    obtain ⟨d, among, rfl⟩ := List.mem_map.mp member
    rw [chars_uniform, List.append_cancel_right_eq, String.toList_inj] at same
    obtain ⟨rfl, rfl⟩ := uniformLine_injective same
    exact among
  · exact ⟨_, List.mem_map_of_mem member, chars_uniform _⟩

/-- A kind of declarations to look for: all of them start with one character and end with a semicolon. -/
structure IsKind (first : Char) (kind : String → Bool) : Prop where
  starts : ∀ text, kind text = true → text.toList.head? = some first
  ends : ∀ text, kind text = true → text.toList.getLast? = some ';'

/-- The declaration of a uniform is a kind of its own. -/
theorem isKind_uniform (type : DataType) (name : String) :
    IsKind 'u' (· == uniformLine type name) where
  starts text same := by simp [beq_iff_eq.mp same, uniformLine]
  -- Such a line ends with a semicolon as all declarations do.
  ends text same := by
    simp [beq_iff_eq.mp same, uniformLine, List.getLast?_cons, List.getLast?_append]

variable {first : Char} {kind : String → Bool}

/-- The marks of a line of a kind start as all of that kind do. -/
theorem IsKind.opens (isKind : IsKind first kind) (found : kind (lineText marks) = true) :
    (chars marks).head? = some first := by
  have starts := isKind.starts _ found
  rw [lineText, String.toList_ofList] at starts
  -- The text of a line is the front of its characters.
  obtain ⟨last, whole⟩ := List.dropLast_prefix (chars marks)
  rw [← whole, List.head?_append, starts, Option.some_or]

/-- What is found in a section is found among its lines. -/
theorem filter_paragraph (isKind : IsKind first kind) {lines : List (List Mark)}
    (each : ∀ l ∈ lines, IsOneLine l) :
    (outerLines (chars (paragraph lines) ++ rest)).filter kind =
      (lines.map lineText).filter kind ++ (outerLines rest).filter kind := by
  -- The empty line behind the section starts with nothing.
  have noSpace : ¬kind "" = true := fun found => nomatch isKind.starts "" found
  have space : (if lines.isEmpty then [] else [""]).filter kind = [] := by
    split <;> simp [noSpace]
  rw [outerLines_paragraph each, List.filter_append, List.filter_append, space, List.append_nil]

/-- Nothing is found among lines that start otherwise. -/
theorem filter_others (isKind : IsKind first kind) {α : Type} {starts : List Char}
    {good : α → Prop} {line : Nat → α → List Mark} {xs : List α}
    (isLine : ∀ i, IsLine starts good (line i)) (differs : first ∉ starts)
    (each : ∀ i, ∀ x ∈ xs, IsOneLine (line i x)) :
    (outerLines (chars (paragraph (xs.mapIdx line)) ++ rest)).filter kind =
      (outerLines rest).filter kind := by
  have each : ∀ l ∈ xs.mapIdx line, IsOneLine l := by
    intro l member
    obtain ⟨i, bound, rfl⟩ := List.mem_mapIdx.mp member
    exact each i _ (List.getElem_mem bound)
  -- No line of the section passes the test.
  have none : ((xs.mapIdx line).map lineText).filter kind = [] := by
    refine List.filter_eq_nil_iff.mpr fun text member found => ?_
    obtain ⟨l, among, rfl⟩ := List.mem_map.mp member
    obtain ⟨i, bound, rfl⟩ := List.mem_mapIdx.mp among
    -- The first character tells the lines apart.
    obtain ⟨c, more, opens, starts⟩ := (isLine i).opens xs[i]
    have same := isKind.opens found
    rw [opens] at same
    exact differs (Option.some.inj same ▸ starts)
  rw [filter_paragraph isKind each, none, List.nil_append]

/-- Nothing that starts otherwise is found among varyings. -/
theorem filter_varyings (isKind : IsKind first kind) {direction : String} {c : Char}
    {more : List Char} (spelled : direction.toList = c :: more) (noFlat : c ≠ 'f')
    (differs : first ∉ ['f', c]) (inline : IsInline direction.toList) {ds : List Declaration}
    (named : ∀ d ∈ ds, IsInlineName d.name) :
    (outerLines (chars (varyingMarks direction ds) ++ rest)).filter kind =
      (outerLines rest).filter kind := by
  -- Each line of a varying starts with `flat` or with its direction, and no line of the kind does.
  rw [varyingMarks, map_eq_mapIdx]
  refine filter_others isKind (fun _ => isLine_varying spelled noFlat) differs ?_
  intro _ d member
  refine isOneLine_qualified (named d member) ?_
  split <;> simp [inline]

/-- Nothing is found in the function of a stage. -/
theorem filter_main (isKind : IsKind first kind) {body : List Statement}
    (balanced : Balanced (blockMarks body)) :
    (outerLines (chars (mainMarks body))).filter kind = [] := by
  obtain ⟨read, whole⟩ := outerLines_main balanced
  rw [whole]
  refine List.filter_eq_nil_iff.mpr fun text member found => ?_
  -- A declaration ends with a semicolon, and the function with a brace.
  have ends := isKind.ends text found
  rw [List.mem_singleton.mp member, String.toList_ofList, List.getLast?_concat] at ends
  exact absurd ends (by decide)

end Sections

/-- What is behind the version of a text is all that its globals are looked for in. -/
theorem globals_render (version : Version) (marks : List Mark) :
    globals version (render (versionMarks version ++ marks)) = outerLines (chars marks) := by
  -- What is dropped is as long as the marks of the version.
  unfold globals
  congr 1
  change (chars (versionMarks version ++ marks)).drop _ = _
  rw [chars_append, ← String.length_toList]
  exact List.drop_left

/-- A program that is written exposes its uniforms. -/
theorem uniforms_of_write {converted : Converted} (written : write version program = .ok converted) :
    converted.uniforms = ⟨program.uniforms⟩ := by
  -- The table of a written program is made of its uniforms whatever else is written.
  simp only [write, bind_eq_ok, pure_eq_ok] at written
  obtain ⟨_, -, _, -, _, -, _, -, _, -, _, -, rfl⟩ := written
  rfl

/-- The names of a program that was read are inline. -/
theorem hasInlineNames_of_parse {source programName : String} {defines : Defines}
    (parsed : Program.parse programName defines source = .ok program) : HasInlineNames program :=
  -- The names of what was read are names, and these are inline.
  (all_of_parse parsed).imp (fun _ written => written.valid.names fun _ => isInlineName_of_isName)
    (fun _ _ => trivial) fun _ named => isInlineName_of_isName named.isName

/-- The function of a stage with inline names is balanced. -/
theorem HasInlineNames.balanced (names : HasInlineNames program) {stage : Stage}
    {body : List Statement} (found : program.stage? stage = some body) : Balanced (blockMarks body) :=
  -- The statements of a stage are balanced one by one.
  balanced_block fun s member => balanced_statement (names.stages stage body found s member)

/-- The line of a component stands on its own. -/
theorem isOneLine_component (location : Nat) (component : VertexComponent) :
    IsOneLine (located location "in" (componentDeclaration component)) :=
  -- The names of components are inline, and they are declared at a location.
  isOneLine_located (isInlineName_of_isName (hasName_component component)) (by simp)

/--
The global declarations of uniforms in both texts are those of the program.

Neither the version, nor other declarations, nor the function of a stage add to them.
-/
theorem mem_globals_iff {converted : Converted} (names : HasInlineNames program)
    (written : write version program = .ok converted) (type : DataType) (name : String) :
    (uniformLine type name ∈ globals version converted.vertex ↔ ⟨type, name⟩ ∈ program.uniforms) ∧
      (uniformLine type name ∈ globals version converted.fragment ↔
        ⟨type, name⟩ ∈ program.uniforms) := by
  -- Both texts declare the uniforms right behind the version.
  obtain ⟨vertex, fragment, hasVertex, hasFragment, -, -, textVertex, textFragment⟩ :=
    write_eq_ok written
  have isKind := isKind_uniform type name
  -- Behind the uniforms none is found.
  have missing : ∀ {lines : List String}, lines.filter (· == uniformLine type name) = [] →
      uniformLine type name ∉ lines := by
    intro lines none member
    exact List.filter_eq_nil_iff.mp none _ member (beq_self_eq_true _)
  constructor
  · rw [textVertex, vertexMarks, List.append_assoc, List.append_assoc, List.append_assoc,
      globals_render, chars_append, mem_outerLines_uniforms names.uniforms, or_iff_left]
    apply missing
    rw [chars_append, inputMarks,
      filter_others isKind isLine_component (by decide) fun location component _ =>
        isOneLine_component location component,
      chars_append, filter_varyings isKind rfl (by decide) (by decide) (by simp) names.varyings]
    exact filter_main isKind (names.balanced hasVertex)
  · rw [textFragment, fragmentMarks, List.append_assoc, List.append_assoc, List.append_assoc,
      globals_render, chars_append, mem_outerLines_uniforms names.uniforms, or_iff_left]
    apply missing
    rw [chars_append, filter_varyings isKind rfl (by decide) (by decide) (by simp) names.varyings,
      chars_append, outputMarks,
      filter_others isKind (fun i => isLine_located i "out") (by decide) fun _ output member =>
        isOneLine_located (names.outputs output member) (by simp)]
    -- The function of the stage is the last part of the text.
    exact filter_main isKind (names.balanced hasFragment)

end Shading.Glsl

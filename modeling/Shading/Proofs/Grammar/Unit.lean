import Shading.Proofs.Grammar.Body

/-! The grammar of whole sources: declarations, vertex layouts, stages and conditionals of them. -/

namespace Shading.Grammar

open Source

/-- The keyword of a declaration that has a role. -/
def roleKeyword : Role → Keyword
  | .uniform => .uniform
  | .varying => .varying
  | .output => .output

/-- The keyword of a stage. -/
def stageKeyword : Stage → Keyword
  | .vertex => .vertex
  | .fragment => .fragment

/-- The words begin with the components of a layout and its closing brace. -/
inductive ComponentsSpan : List (String × Nat) → List Token → List Token → Prop
  | none {line rest} :
    ComponentsSpan [] (sign .rightBrace line :: rest) rest
  | last {name line line' rest} :
    isReserved name = false →
    ComponentsSpan [(name, line)] (word name line :: sign .rightBrace line' :: rest) rest
  -- The comma after the last component may also stand.
  | next {name line named line' tokens rest} :
    isReserved name = false →
    ComponentsSpan named tokens rest →
    ComponentsSpan ((name, line) :: named) (word name line :: sign .comma line' :: tokens) rest

/-- The words begin with a top-level part that is not conditional. -/
inductive PlainSpan (room : Nat) : Item (List SourceStatement) → List Token → List Token → Prop
  | declaration {role type name line line' line'' line''' rest} :
    isReserved name = false →
    PlainSpan room (.declaration role ⟨type, name⟩ line'')
      (word (roleKeyword role).spelling line :: word type.keyword line' :: word name line'' ::
        sign .semicolon line''' :: rest) rest
  | layout {named line line' tokens rest} :
    ComponentsSpan named tokens rest →
    PlainSpan room (.layout named line)
      (word (Keyword.spelling .vertexLayout) line :: sign .leftBrace line' :: tokens) rest
  | stage {which body line tokens rest} :
    (BodyPhrase.block body).Spans room tokens rest →
    PlainSpan room (.stage which body line)
      (word (stageKeyword which).spelling line :: tokens) rest

/-- A part of a source that the grammar has rules for, with the top-level parts it stands for. -/
inductive ItemPhrase
  | item (i : SourceItem)
  | conditional (i : SourceItem)
  /-- What follows the opening brace of a region, the closing one included. -/
  | region (is : List SourceItem)
  /-- What follows the first region of a conditional, which may be nothing. -/
  | alternative (is : List SourceItem)
  /-- All parts up to the word that ends the source. -/
  | items (is : List SourceItem)

/-- The words begin with a phrase, nested within a number of levels, after which the rest remains. -/
inductive ItemPhrase.Spans : Nat → ItemPhrase → List Token → List Token → Prop
  | plain {room item tokens rest} :
    PlainSpan room item tokens rest →
    Spans room (.item (.always item)) tokens rest
  | tested {room i tokens rest} :
    Spans room (.conditional i) tokens rest →
    Spans room (.item i) tokens rest
  | conditional {room key present yes no line line' line'' tokens afterYes rest} :
    isReserved key = false →
    Spans room (.region yes) tokens afterYes →
    Spans room (.alternative no) afterYes rest →
    Spans room (.conditional (.choice ⟨key, present⟩ yes no))
      (word (testKeyword present).spelling line :: word key line' :: sign .leftBrace line'' :: tokens)
      rest
  | endRegion {room line rest} :
    Spans room (.region []) (sign .rightBrace line :: rest) rest
  | nextInRegion {room i is tokens afterFirst rest} :
    Spans room (.item i) tokens afterFirst →
    Spans (room + 1) (.region is) afterFirst rest →
    Spans (room + 1) (.region (i :: is)) tokens rest
  | without {room rest} :
    Spans room (.alternative []) rest rest
  | otherwise {room is line line' tokens rest} :
    Spans room (.region is) tokens rest →
    Spans room (.alternative is)
      (word (Keyword.spelling .otherwise) line :: sign .leftBrace line' :: tokens) rest
  | chained {room i line tokens rest} :
    Spans room (.conditional i) tokens rest →
    Spans (room + 1) (.alternative [i])
      (word (Keyword.spelling .otherwise) line :: tokens) rest
  | ended {room line rest} :
    Spans room (.items []) (⟨.endOfFile, line⟩ :: rest) (⟨.endOfFile, line⟩ :: rest)
  | next {room i is tokens afterFirst rest} :
    Spans room (.item i) tokens afterFirst →
    Spans room (.items is) afterFirst rest →
    Spans room (.items (i :: is)) tokens rest

/-- The words are a sentence of the grammar that stands for these parts, however deeply nested. -/
def SentenceOf (items : List SourceItem) (tokens : List Token) : Prop :=
  ∃ room line, (ItemPhrase.items items).Spans room tokens [⟨.endOfFile, line⟩]

/-- The words are a sentence of the grammar. -/
def Sentence (tokens : List Token) : Prop :=
  ∃ items, SentenceOf items tokens

/-- The fewest words that a phrase takes; the end of the source is not taken. -/
def ItemPhrase.leastLength : ItemPhrase → Nat
  | .alternative _ | .items _ => 0
  | _ => 1

variable {room : Nat} {tokens rest : List Token}

/-- The components of a layout do not take the word that ends the source. -/
theorem ComponentsSpan.remains {named : List (String × Nat)}
    (spans : ComponentsSpan named tokens rest) : Remains rest tokens := by
  -- Along the derivation: each component takes its name and the separator behind it.
  induction spans with
  | none => exact .one
  | last => exact (Remains.one).drop
  | next _ _ ih => exact ih.trans (Remains.one).drop

namespace PlainSpan

variable {item : Item (List SourceStatement)}

/-- A part takes words from the front, and not the one that ends the source. -/
theorem remains (spans : PlainSpan room item tokens rest) : Remains rest tokens := by
  -- Every part takes its keyword, and then what stands behind it.
  cases spans with
  | declaration => exact (Remains.one).drop.drop.drop
  | layout components => exact components.remains.trans (Remains.one).drop
  | stage body => exact body.remains.trans .one

/-- A top-level part takes at least one word. -/
theorem shorter (spans : PlainSpan room item tokens rest) : rest.length < tokens.length := by
  -- Each part starts with a keyword.
  cases spans with
  | declaration =>
    simp only [List.length_cons]
    omega
  | layout components =>
    have fewer := components.remains.length_le
    simp only [List.length_cons]
    omega
  | stage body => exact Nat.lt_succ_of_le body.remains.length_le

/-- A part that fits within a number of levels fits within more of them. -/
theorem mono (spans : PlainSpan room item tokens rest) {wider : Nat} (enough : room ≤ wider) :
    PlainSpan wider item tokens rest := by
  -- Only the body of a stage has levels.
  cases spans with
  | declaration free => exact .declaration free
  | layout components => exact .layout components
  | stage body => exact .stage (body.mono enough)

/-- The first word of a part is its keyword. -/
theorem startsPart (spans : PlainSpan room item tokens rest) : StartsPart tokens := by
  -- The keyword is fixed by the kind of part.
  cases spans with
  | @declaration role => exact startsPart_keyword (by cases role <;> decide) _ _
  | layout => exact startsPart_keyword (by decide) _ _
  | @stage which => exact startsPart_keyword (by cases which <;> decide) _ _

end PlainSpan

namespace ItemPhrase.Spans

variable {phrase : ItemPhrase}

/-- A phrase takes words from the front, and not the one that ends the source. -/
theorem remains (spans : phrase.Spans room tokens rest) : Remains rest tokens := by
  -- No phrase takes the end of the source, which stands behind all of its words.
  induction spans with
  | plain plain => exact plain.remains
  | tested _ ih => exact ih
  | conditional _ _ _ yes no =>
    exact (no.trans yes).trans (Remains.one).drop.drop
  | endRegion => exact .one
  | nextInRegion _ _ first more | next _ _ first more => exact more.trans first
  | without | ended => exact .refl _
  | otherwise _ ih => exact ih.trans (Remains.one).drop
  | chained _ ih => exact ih.trans .one

/-- A phrase takes at least one word, unless nothing stands for it. -/
theorem length_le (spans : phrase.Spans room tokens rest) :
    rest.length + phrase.leastLength ≤ tokens.length := by
  -- A plain part takes its keyword, and all others count the words that they are written with.
  induction spans with
  | plain plain => exact plain.shorter
  | _ =>
    simp only [leastLength, List.length_cons] at *
    omega

/-- A phrase fits within one level more than it needs. -/
theorem step (spans : phrase.Spans room tokens rest) : phrase.Spans (room + 1) tokens rest := by
  -- The room is passed on, and what is nested needs one level less in both cases.
  induction spans with
  | plain plain => exact .plain (plain.mono (Nat.le_succ _))
  | tested _ ih => exact .tested ih
  | conditional free _ _ yes no => exact .conditional free yes no
  | endRegion => exact .endRegion
  | nextInRegion _ _ first more => exact .nextInRegion first more
  | without => exact .without
  | otherwise _ ih => exact .otherwise ih
  -- A further conditional behind `else` is nested in the first one.
  | chained _ ih => exact .chained ih
  | ended => exact .ended
  | next _ _ first more => exact .next first more

/-- A phrase that fits within a number of levels fits within more of them. -/
theorem mono (spans : phrase.Spans room tokens rest) {wider : Nat} (enough : room ≤ wider) :
    phrase.Spans wider tokens rest := by
  -- One level at a time.
  induction enough with
  | refl => exact spans
  | step _ ih => exact ih.step

/-- A top-level part starts with no brace and no `else`. -/
theorem starts {i : SourceItem} (spans : (ItemPhrase.item i).Spans room tokens rest) :
    StartsPart tokens := by
  -- A plain part starts with its keyword, and a conditional with its test.
  cases spans with
  | plain plain => exact plain.startsPart
  | tested conditional =>
    cases conditional with
    | conditional => exact startsPart_test _ _ _

end ItemPhrase.Spans

/-- What follows a part of a region is no `else`. -/
theorem noElse_of_itemRegion {is : List SourceItem}
    (spans : (ItemPhrase.region is).Spans room tokens rest) :
    headKeyword? tokens ≠ some .otherwise := by
  -- Behind a region stands its brace or the next of its parts, and neither is an `else`.
  cases spans with
  | endRegion => simp
  | nextInRegion first _ => exact first.starts.noElse

/-- What follows a top-level part is no `else`. -/
theorem noElse_of_items {is : List SourceItem}
    (spans : (ItemPhrase.items is).Spans room tokens rest) :
    headKeyword? tokens ≠ some .otherwise := by
  -- Behind the parts of a source stands its end or the next part.
  cases spans with
  | ended => simp [headKeyword?, Token.keyword?]
  | next first _ => exact first.starts.noElse

/-- The words of a source: some words, and after them the one that ends it. -/
def EndsOnce (tokens : List Token) : Prop :=
  ∃ words line, tokens = words ++ [⟨.endOfFile, line⟩] ∧ ∀ token ∈ words, token.isEnd = false

/-- What remains of a source is the end of the same source. -/
theorem EndsOnce.remains (ends : EndsOnce tokens) (remains : Remains rest tokens) :
    EndsOnce rest := by
  obtain ⟨words, line, rfl, before⟩ := ends
  obtain ⟨taken, split, noEnd⟩ := remains
  rcases List.append_eq_append_iff.mp split with ⟨fewer, rfl, lastOne⟩ | ⟨fewer, rfl, rfl⟩
  · -- The taken words would reach beyond the last one, which they do not even contain.
    rcases fewer with _ | ⟨last, fewer⟩
    · exact ⟨[], line, by simpa using lastOne.symm, by simp⟩
    · have same : last = ⟨.endOfFile, line⟩ := by simp_all
      exact absurd (noEnd last (by simp)) (by simp [same, Token.isEnd])
  · exact ⟨fewer, line, rfl, fun token member => before token (List.mem_append_right _ member)⟩

/-- What remains after a phrase of a source is the end of the same source. -/
theorem ItemPhrase.Spans.endsOnce {phrase : ItemPhrase} (spans : phrase.Spans room tokens rest)
    (ends : EndsOnce tokens) : EndsOnce rest :=
  -- The end is not among the words that a phrase takes.
  ends.remains spans.remains

/-- The words of a source have a first one. -/
theorem EndsOnce.exists_cons (ends : EndsOnce tokens) : ∃ first rest, tokens = first :: rest := by
  -- The end itself is the first word when there is no other.
  obtain ⟨words, line, rfl, -⟩ := ends
  rcases words with _ | ⟨first, words⟩
  · exact ⟨_, _, rfl⟩
  · exact ⟨_, _, rfl⟩

/-- What starts with the word that ends a source is that word alone. -/
theorem EndsOnce.eq_of_isEnd {tokens : List Token} (ends : EndsOnce tokens)
    (atEnd : (headToken tokens).isEnd = true) : ∃ line, tokens = [⟨.endOfFile, line⟩] := by
  -- Any word in front of the end would be the first one, and only the last one is an end.
  obtain ⟨words, line, rfl, before⟩ := ends
  rcases words with _ | ⟨first, words⟩
  · exact ⟨line, rfl⟩
  · simp [before first (by simp)] at atEnd

end Shading.Grammar

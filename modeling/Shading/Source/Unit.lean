import Shading.Language.VertexLayout
import Shading.Source.Body
import Shading.Source.Item

/-! Reading whole sources. -/

namespace Shading.Source

/-- Reads a declaration after the keyword that gives its role. -/
def declaration (role : Role) : Parser (Item (List SourceStatement)) := fun tokens => do
  let (type, rest) ← dataType tokens
  -- A fault in a declaration is reported at its name.
  let line := (headToken rest).line
  let (name, rest) ← name .name rest
  let rest ← expect .semicolon rest
  return (.declaration role ⟨type, name⟩ line, rest)

/-- Reads the names of components up to a closing brace, each with its line. -/
def componentNames : Nat → Parser (List (String × Nat))
  -- Every component takes a word, so that no word is left when the limit is met.
  | 0, tokens =>
    if startsWith .rightBrace tokens then .ok ([], tokens.tail)
    else unexpected .vertexComponent tokens
  | limit + 1, tokens =>
    if startsWith .rightBrace tokens then .ok ([], tokens.tail)
    else do
      let line := (headToken tokens).line
      let (name, rest) ← name .vertexComponent tokens
      -- The comma after the last component may be left out.
      let rest ← if startsWith .rightBrace rest then .ok rest else expect .comma rest
      let (names, rest) ← componentNames limit rest
      return ((name, line) :: names, rest)

/-- Reads a vertex layout, on which the words have to stand. -/
def layoutItem : Parser (Item (List SourceStatement)) := fun tokens => do
  let rest ← expect .leftBrace tokens.tail
  let (components, rest) ← componentNames rest.length rest
  return (.layout components (headToken tokens).line, rest)

/-- Reads a stage, on which the words have to stand. -/
def stageItem (room : Nat) (stage : Stage) : Parser (Item (List SourceStatement)) := fun tokens => do
  let (body, rest) ← (bodyParsers room).block tokens.tail
  return (.stage stage body (headToken tokens).line, rest)

/-- Reads a top-level part that is not conditional. -/
def plainItem (room : Nat) : Parser (Item (List SourceStatement)) := fun tokens =>
  match headKeyword? tokens with
  | some .uniform => declaration .uniform tokens.tail
  | some .varying => declaration .varying tokens.tail
  | some .output => declaration .output tokens.tail
  | some .vertexLayout => layoutItem tokens
  | some .vertex => stageItem room .vertex tokens
  | some .fragment => stageItem room .fragment tokens
  | _ => unexpected .item tokens

/-- The readers of top-level parts, one level deeper than where they are used. -/
structure ItemParsers where
  item : PartsParser SourceItem
  conditional : PartsParser SourceItem

/-- Reads a top-level part. -/
def item (room : Nat) (inner : ItemParsers) : PartsParser SourceItem := fun tokens =>
  if startsConditional tokens then conditional .choice inner.item inner.conditional tokens
  else .ofResult ((plainItem room tokens).map fun (value, rest) => (.always value, rest))

/-- The readers of what may be nested within the given number of further levels. -/
def itemParsers : Nat → ItemParsers
  | 0 => ⟨fun tokens => ⟨[], tooDeep tokens⟩, fun tokens => ⟨[], tooDeep tokens⟩⟩
  | room + 1 =>
    let inner := itemParsers room
    ⟨item room inner, conditional .choice inner.item inner.conditional⟩

/-- Reads top-level parts up to the end of the source. -/
def untilEnd (part : PartsParser SourceItem) : Nat → PartsParser SourceItem
  -- Every part takes a word, so that no word is left when the limit is met.
  | 0, tokens => ⟨[], .ok tokens⟩
  | limit + 1, tokens =>
    if (headToken tokens).isEnd then ⟨[], .ok tokens⟩
    else (part tokens).andThen (untilEnd part limit)

/-- Reads a source nested at most as deeply as given: what it completes is the same for all defines. -/
def sourceItems (room : Nat) : PartsParser SourceItem := fun tokens =>
  untilEnd (item room (itemParsers room)) tokens.length tokens

end Shading.Source

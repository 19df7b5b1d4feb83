/-! JSON values and what can be read out of them. -/

namespace Shading

/-- A unit of text in JSON: a character, or half of one given by an escape without its partner. -/
inductive TextUnit
  | scalar (c : Char)
  | half (code : Nat)
deriving DecidableEq

/-- A JSON value. -/
inductive Json
  | null
  | bool (value : Bool)
  /-- A number written in digits alone. -/
  | natural (value : Nat)
  /-- Any other number, as it is written. -/
  | number (literal : String)
  | string (units : List TextUnit)
  | array (items : List Json)
  /-- Members keep their order, and a key may occur more than once. -/
  | object (members : List (List TextUnit × Json))
deriving Inhabited

namespace Json

/-- The character that two halves are, of which the first has to be high and the second low. -/
def join? (high low : Nat) : Option Char :=
  if high < 0xdc00 ∧ 0xdc00 ≤ low then
    some (Char.ofNat (0x10000 + (high - 0xd800) * 0x400 + (low - 0xdc00)))
  else none

/-- The characters that units denote; a half without its partner denotes none. -/
def characters? : List TextUnit → Option (List Char)
  | [] => some []
  | .scalar c :: rest => (characters? rest).map (c :: ·)
  | .half high :: .half low :: rest => do
    let c ← join? high low
    let more ← characters? rest
    return c :: more
  | .half _ :: _ => none

/-- The units of a text. -/
def unitsOf (text : String) : List TextUnit :=
  text.toList.map .scalar

/-- The string of a text. -/
def ofText (text : String) : Json :=
  .string (unitsOf text)

/-- The object with these members. -/
def record (members : List (String × Json)) : Json :=
  .object (members.map fun (key, value) => (unitsOf key, value))

/-- The text that units denote. -/
def textOf? (units : List TextUnit) : Option String :=
  (characters? units).map String.ofList

/-- The text of a string. -/
def text? : Json → Option String
  | string units => textOf? units
  | _ => none

/-- The value of `true` or `false`. -/
def bool? : Json → Option Bool
  | bool value => some value
  | _ => none

/-- A number below a limit, written in digits alone. -/
def below? (limit : Nat) : Json → Option Nat
  | natural value => if value < limit then some value else none
  | _ => none

/-- A value that may be null. -/
def nullable? {α : Type} (read : Json → Option α) : Json → Option (Option α)
  | null => some none
  | value => (read value).map some

/-- The members of an object, whose keys have to be texts. -/
def members? : Json → Option (List (String × Json))
  | object members => members.mapM fun (key, value) => (textOf? key).map fun key => (key, value)
  | _ => none

/-- The fields of a record, written as an object or as an array in field order. -/
def fields? (names : List String) : Json → Option (List (String × Json))
  | array items =>
    -- Fields at the end may be left out, and there is no room for more than all of them.
    if items.length ≤ names.length then some (names.zip items) else none
  | value => do
    let members ← value.members?
    -- Members that are no fields are left aside, but a field must not be given twice.
    if names.all fun name => members.countP (·.1 == name) ≤ 1 then some members else none

/-- The value of a field, or what it is if it is left out. -/
def orElse? {α : Type} (field : Option Json) (absent : Option α) (read : Json → Option α) :
    Option α :=
  match field with
  | some value => read value
  | none => absent

end Json

end Shading

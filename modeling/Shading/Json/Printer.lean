import Shading.Json.Basic

/-! The compact text of JSON values. -/

namespace Shading.Json

/-- A number in four hexadecimal digits. -/
def fourDigits (n : Nat) : List Char :=
  let digits := Nat.toDigits 16 n
  List.replicate (4 - digits.length) '0' ++ digits

/-- A unit of text as it stands between quotes. -/
def escapeUnit : TextUnit → List Char
  | .scalar c =>
    if c = '"' then ['\\', '"']
    else if c = '\\' then ['\\', '\\']
    else if c = '\x08' then ['\\', 'b']
    else if c = '\t' then ['\\', 't']
    else if c = '\n' then ['\\', 'n']
    else if c = '\x0c' then ['\\', 'f']
    else if c = '\r' then ['\\', 'r']
    -- Other control characters are given by their code points, all else stands for itself.
    else if c.toNat < 0x20 then '\\' :: 'u' :: fourDigits c.toNat
    else [c]
  | .half code => '\\' :: 'u' :: fourDigits code

/-- A string with its quotes. -/
def quoteUnits (units : List TextUnit) : List Char :=
  '"' :: units.flatMap escapeUnit ++ ['"']

mutual

/-- The characters of a value, without blanks. -/
def characters : Json → List Char
  | null => ['n', 'u', 'l', 'l']
  | bool true => ['t', 'r', 'u', 'e']
  | bool false => ['f', 'a', 'l', 's', 'e']
  | natural value => Nat.toDigits 10 value
  | number literal => literal.toList
  | string units => quoteUnits units
  | array items => '[' :: itemCharacters items ++ [']']
  | object members => '\x7b' :: memberCharacters members ++ ['\x7d']

/-- The characters of the items of an array. -/
def itemCharacters : List Json → List Char
  | [] => []
  | [item] => item.characters
  | item :: rest => item.characters ++ ',' :: itemCharacters rest

/-- The characters of the members of an object. -/
def memberCharacters : List (List TextUnit × Json) → List Char
  | [] => []
  | [(key, value)] => quoteUnits key ++ ':' :: value.characters
  | (key, value) :: rest =>
    quoteUnits key ++ ':' :: value.characters ++ ',' :: memberCharacters rest

end

/-- The text of a value. -/
def compact (value : Json) : String :=
  String.ofList value.characters

end Shading.Json

import Shading.Json.Basic

/-! Reading JSON values from texts. -/

namespace Shading.Json

/-- Reads something from the front of the characters, leaving the characters after it. -/
abbrev Reader (α : Type) := List Char → Option (α × List Char)

/-- The characters that may stand between the parts of a value. -/
def isSpace (c : Char) : Bool :=
  c == ' ' || c == '\t' || c == '\n' || c == '\r'

/-- Leaves out blanks. -/
def skipSpace (cs : List Char) : List Char :=
  cs.dropWhile isSpace

/-- The value of a hexadecimal digit in either case. -/
def hexDigit? (c : Char) : Option Nat :=
  if c.isDigit then some (c.toNat - '0'.toNat)
  else if 'a' ≤ c ∧ c ≤ 'f' then some (c.toNat - 'a'.toNat + 10)
  else if 'A' ≤ c ∧ c ≤ 'F' then some (c.toNat - 'A'.toNat + 10)
  else none

/-- The unit that four hexadecimal digits stand for. -/
def codeUnit (code : Nat) : TextUnit :=
  if 0xd800 ≤ code ∧ code < 0xe000 then .half code else .scalar (Char.ofNat code)

/-- The unit that a character stands for after a backslash. -/
def shortEscape? : Char → Option TextUnit
  | '"' => some (.scalar '"')
  | '\\' => some (.scalar '\\')
  | '/' => some (.scalar '/')
  | 'b' => some (.scalar '\x08')
  | 'f' => some (.scalar '\x0c')
  | 'n' => some (.scalar '\n')
  | 'r' => some (.scalar '\r')
  | 't' => some (.scalar '\t')
  | _ => none

/-- Reads the units of a string up to the quote that ends it. -/
def units : Reader (List TextUnit)
  | [] => none
  | '"' :: rest => some ([], rest)
  | '\\' :: 'u' :: a :: b :: c :: d :: rest => do
    let a ← hexDigit? a
    let b ← hexDigit? b
    let c ← hexDigit? c
    let d ← hexDigit? d
    let (more, rest) ← units rest
    return (codeUnit (((a * 16 + b) * 16 + c) * 16 + d) :: more, rest)
  | '\\' :: c :: rest => do
    let unit ← shortEscape? c
    let (more, rest) ← units rest
    return (unit :: more, rest)
  | c :: rest =>
    -- Control characters have to be escaped, and a backslash escapes something.
    if c.toNat < 0x20 ∨ c = '\\' then none
    else do
      let (more, rest) ← units rest
      return (.scalar c :: more, rest)

/-- A run of at least one digit. -/
def digits : Reader (List Char) := fun cs =>
  let run := cs.takeWhile Char.isDigit
  if run.isEmpty then none else some (run, cs.dropWhile Char.isDigit)

/-- The digits before a point, which start with a zero only if they are a single one. -/
def wholeDigits : Reader (List Char) := fun cs => do
  let (run, rest) ← digits cs
  if run.head? = some '0' ∧ run.length ≠ 1 then none else return (run, rest)

/-- A point with digits after it, if there is one. -/
def fraction : Reader (List Char)
  | '.' :: rest => do
    let (run, rest) ← digits rest
    return ('.' :: run, rest)
  | cs => some ([], cs)

/-- The sign of an exponent, if there is one. -/
def exponentSign : List Char → List Char × List Char
  | '+' :: rest => (['+'], rest)
  | '-' :: rest => (['-'], rest)
  | cs => ([], cs)

/-- An exponent, if there is one. -/
def exponent : Reader (List Char) := fun cs =>
  match cs with
  | [] => some ([], [])
  | c :: rest =>
    if c = 'e' ∨ c = 'E' then do
      let (sign, rest) := exponentSign rest
      let (run, rest) ← digits rest
      return (c :: sign ++ run, rest)
    else some ([], cs)

/-- Reads a number after its sign. -/
def unsigned (sign : List Char) : Reader Json := fun cs => do
  let (whole, rest) ← wholeDigits cs
  let (part, rest) ← fraction rest
  let (power, rest) ← exponent rest
  -- Only a plain run of digits is a natural number; all others keep their spelling.
  if sign.isEmpty && part.isEmpty && power.isEmpty then
    return (.natural (Nat.ofDigitChars 10 whole 0), rest)
  else return (.number (String.ofList (sign ++ whole ++ part ++ power)), rest)

mutual

/-- Reads a value in at most the given number of steps. -/
def value : Nat → Reader Json
  | 0, _ => none
  | steps + 1, cs =>
    match skipSpace cs with
    | 'n' :: 'u' :: 'l' :: 'l' :: rest => some (.null, rest)
    | 't' :: 'r' :: 'u' :: 'e' :: rest => some (.bool true, rest)
    | 'f' :: 'a' :: 'l' :: 's' :: 'e' :: rest => some (.bool false, rest)
    | '"' :: rest => do
      let (units, rest) ← units rest
      return (.string units, rest)
    | '[' :: rest =>
      match skipSpace rest with
      | ']' :: rest => some (.array [], rest)
      | rest => do
        let (items, rest) ← items steps rest
        return (.array items, rest)
    | '\x7b' :: rest =>
      match skipSpace rest with
      | '\x7d' :: rest => some (.object [], rest)
      | rest => do
        let (members, rest) ← members steps rest
        return (.object members, rest)
    | '-' :: rest => unsigned ['-'] rest
    | rest => unsigned [] rest

/-- Reads the items of an array up to the bracket that ends it. -/
def items : Nat → Reader (List Json)
  | 0, _ => none
  | steps + 1, cs => do
    let (first, rest) ← value steps cs
    match skipSpace rest with
    | ',' :: rest => do
      let (more, rest) ← items steps rest
      return (first :: more, rest)
    | ']' :: rest => return ([first], rest)
    | _ => none

/-- Reads the members of an object up to the brace that ends it. -/
def members : Nat → Reader (List (List TextUnit × Json))
  | 0, _ => none
  | steps + 1, cs =>
    match skipSpace cs with
    | '"' :: rest => do
      let (key, rest) ← units rest
      match skipSpace rest with
      | ':' :: rest => do
        let (first, rest) ← value steps rest
        match skipSpace rest with
        | ',' :: rest => do
          let (more, rest) ← members steps rest
          return ((key, first) :: more, rest)
        | '\x7d' :: rest => return ([(key, first)], rest)
        | _ => none
      | _ => none
    | _ => none

end

/-- The value that a text is as a whole. -/
def parse? (text : String) : Option Json := do
  -- A step takes a character, or is the first one inside a bracket that took one.
  let (value, rest) ← value (2 * text.toList.length + 2) text.toList
  if (skipSpace rest).isEmpty then return value else none

end Shading.Json

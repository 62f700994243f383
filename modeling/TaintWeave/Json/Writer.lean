import TaintWeave.Json.Basic

/-!
# Writing JSON

A document is written on one line, or with one item per line and two spaces per
level. Only printable ASCII characters stand for themselves; all others are
escaped, those beyond `U+FFFF` by a pair of surrogates.

* `Json.write`, `Json.writeIndented`: the two layouts.
-/

namespace TaintWeave.Json

/-- The escape of a 16-bit unit. -/
def escapeUnit (unit : Nat) : List Char := '\\' :: 'u' :: Text.hexDigits 4 unit

/-- How a character stands in a written text. -/
def escapeChar (c : Char) : List Char :=
  if c = '"' ∨ c = '\\' then ['\\', c]
  else if c = '\n' then ['\\', 'n']
  else if c = '\r' then ['\\', 'r']
  else if c = '\t' then ['\\', 't']
  else if c = '\x08' then ['\\', 'b']
  else if c = '\x0c' then ['\\', 'f']
  else if ' ' ≤ c ∧ c ≤ '~' then [c]
  else if c.toNat < 0x10000 then escapeUnit c.toNat
  else
    let offset := c.toNat - 0x10000
    escapeUnit (0xD800 + offset / 0x400) ++ escapeUnit (0xDC00 + offset % 0x400)

/-- A written text, with its quotes. -/
def writeText (s : String) : String :=
  String.ofList ('"' :: s.toList.flatMap escapeChar ++ ['"'])

/-- What stands for a document without parts. -/
def writeScalar : Json → String
  | boolean b => if b then "true" else "false"
  | number n => n.write .json
  | text s => writeText s
  | _ => "null"

mutual

/-- A document on one line. -/
def write : Json → String
  | array items => "[" ++ String.intercalate ", " (writeItems items) ++ "]"
  | object members => "\x7b" ++ String.intercalate ", " (writeMembers members) ++ "\x7d"
  | null => writeScalar null
  | boolean b => writeScalar (boolean b)
  | number n => writeScalar (number n)
  | text s => writeScalar (text s)

/-- The items of an array. -/
def writeItems : List Json → List String
  | [] => []
  | j :: js => write j :: writeItems js

/-- The members of an object. -/
def writeMembers : List (String × Json) → List String
  | [] => []
  | (k, j) :: rest => (writeText k ++ ": " ++ write j) :: writeMembers rest

end

/-- The start of a line at a level. -/
def newLine (level : Nat) : String := String.ofList ('\n' :: List.replicate (2 * level) ' ')

/-- Parts between brackets, each on a line of its own; brackets alone if there
    are none. -/
def block (level : Nat) (opening closing : String) (parts : List String) : String :=
  if parts.isEmpty then opening ++ closing
  else
    opening ++ newLine (level + 1) ++ String.intercalate ("," ++ newLine (level + 1)) parts ++
      newLine level ++ closing

mutual

/-- A document with one item per line, inside a document at a level. -/
def writeAt (level : Nat) : Json → String
  | array items => block level "[" "]" (itemsAt (level + 1) items)
  | object members => block level "\x7b" "\x7d" (membersAt (level + 1) members)
  | null => writeScalar null
  | boolean b => writeScalar (boolean b)
  | number n => writeScalar (number n)
  | text s => writeScalar (text s)

/-- The items of an array at a level. -/
def itemsAt (level : Nat) : List Json → List String
  | [] => []
  | j :: js => writeAt level j :: itemsAt level js

/-- The members of an object at a level. -/
def membersAt (level : Nat) : List (String × Json) → List String
  | [] => []
  | (k, j) :: rest => (writeText k ++ ": " ++ writeAt level j) :: membersAt level rest

end

/-- A document with one item per line. -/
def writeIndented (j : Json) : String := writeAt 0 j

end TaintWeave.Json

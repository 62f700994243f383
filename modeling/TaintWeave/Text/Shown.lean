import TaintWeave.Text.Quoted

/-!
# Composite values as text

Messages and generated code show composite values by their parts: a list in
brackets, a sequence of fixed length in parentheses, an object in braces, and a
record by its name and fields.

* `Text.list`, `Text.tuple`, `Text.object`, `Text.record`: the four forms.
-/

namespace TaintWeave.Text

/-- A list of parts. -/
def list (parts : List String) : String := "[" ++ String.intercalate ", " parts ++ "]"

/-- A sequence of fixed length; a comma marks one with a single part. -/
def tuple : List String → String
  | [part] => "(" ++ part ++ ",)"
  | parts => "(" ++ String.intercalate ", " parts ++ ")"

/-- An object of parts under keys. -/
def object (parts : List (String × String)) : String :=
  "\x7b" ++ String.intercalate ", " (parts.map fun p => quote p.1 ++ ": " ++ p.2) ++ "\x7d"

/-- A record with a name and parts in fields. -/
def record (name : String) (parts : List (String × String)) : String :=
  name ++ "(" ++ String.intercalate ", " (parts.map fun p => p.1 ++ "=" ++ p.2) ++ ")"

end TaintWeave.Text

import TaintWeave.Text.Printable

/-!
# Quoted text

Messages and generated code show a text as a literal in quotes: single quotes,
or double ones when the text holds a single quote and no double one. The
backslash and the quote in use are escaped by a backslash, line feed, return and
tab by a letter, and every other unprintable character by its code point in two,
four or eight hexadecimal digits.

* `quote`: the literal of a text.
-/

namespace TaintWeave.Text

/-- A number in lower-case hexadecimal digits, with zeros in front up to a
    width. -/
def hexDigits (width n : Nat) : List Char :=
  let digits := Nat.toDigits 16 n
  List.replicate (width - digits.length) '0' ++ digits

/-- How a character stands between quotes of a kind. -/
def quoteChar (mark c : Char) : List Char :=
  if c = mark ∨ c = '\\' then ['\\', c]
  else if c = '\n' then ['\\', 'n']
  else if c = '\r' then ['\\', 'r']
  else if c = '\t' then ['\\', 't']
  else if isPrintable c then [c]
  else if c.toNat < 0x100 then '\\' :: 'x' :: hexDigits 2 c.toNat
  else if c.toNat < 0x10000 then '\\' :: 'u' :: hexDigits 4 c.toNat
  else '\\' :: 'U' :: hexDigits 8 c.toNat

/-- The quotes for a text. -/
def quoteMark (cs : List Char) : Char := if '\'' ∈ cs ∧ '"' ∉ cs then '"' else '\''

/-- The literal of a text. -/
def quote (s : String) : String :=
  let mark := quoteMark s.toList
  String.ofList (mark :: s.toList.flatMap (quoteChar mark) ++ [mark])

end TaintWeave.Text

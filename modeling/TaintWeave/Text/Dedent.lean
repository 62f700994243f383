import TaintWeave.Text.Lines

/-!
# Margins

A text that is indented as a whole is moved to the left. Its margin is what all
of its lines start with, but for blank ones; only spaces and tabs are part of
it.

* `Text.margin`: the margin of lines.
* `Text.dedent`: a text without its margin.
-/

namespace TaintWeave.Text

/-- Whether a character may be part of a margin. -/
def isMargin (c : Char) : Bool := c = ' ' || c = '\t'

/-- A line, empty if it is blank. -/
def emptyIfBlank (line : List Char) : List Char := if line.all isMargin then [] else line

/-- The characters with which two lines start. -/
def commonStart : List Char → List Char → List Char
  | c :: cs, d :: ds => if c = d then c :: commonStart cs ds else []
  | _, _ => []

/-- What a line starts with; a blank one does not count. -/
def marginOf? (line : List Char) : Option (List Char) :=
  if line.all isMargin then none else some (line.takeWhile isMargin)

/-- The margin of lines. -/
def margin (lines : List (List Char)) : List Char :=
  match lines.filterMap marginOf? with
  | [] => []
  | first :: others => others.foldl commonStart first

/-- A line without a margin, if it starts with it. -/
def removeMargin (m line : List Char) : List Char :=
  if m.isPrefixOf line then line.drop m.length else line

/-- A text without its margin. Its blank lines are empty. -/
def dedent (cs : List Char) : List Char :=
  let lines := (splitLines cs).map emptyIfBlank
  ['\n'].intercalate (lines.map (removeMargin (margin lines)))

end TaintWeave.Text

/-!
# Lines

Texts as lines. A line feed ends a line; when a file is read, so do a carriage
return and the two together.

* `Text.splitLines`: the lines of a text.
* `Text.unifyLineEnds`: a text in which every line ends in a line feed.
-/

namespace TaintWeave.Text

/-- The lines of a text, split at every line feed. There is always one. -/
def splitLines : List Char → List (List Char)
  | [] => [[]]
  | c :: cs =>
    if c = '\n' then [] :: splitLines cs
    else match splitLines cs with
      | [] => [[c]]
      | line :: lines => (c :: line) :: lines

/-- A text without line feeds at its end. -/
def dropFinalLineFeeds (cs : List Char) : List Char :=
  (cs.reverse.dropWhile (· = '\n')).reverse

/-- A text with line feeds in place of carriage returns, alone or before a line
    feed. -/
def unifyLineEnds : List Char → List Char
  | '\r' :: '\n' :: cs => '\n' :: unifyLineEnds cs
  | '\r' :: cs => '\n' :: unifyLineEnds cs
  | c :: cs => c :: unifyLineEnds cs
  | [] => []

end TaintWeave.Text

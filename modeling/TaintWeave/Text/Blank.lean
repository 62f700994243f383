import TaintWeave.Text.Ranges

/-!
# Blank characters

The characters that do not count at the ends of a text: the separators of
Unicode and the control characters that separate lines, pages and records.

* `stripBlanks`: a text without the blanks at its ends.
-/

namespace TaintWeave.Text

/-- The blank characters. -/
def blanks : Ranges :=
  [(0x9, 0xD), (0x1C, 0x20), (0x85, 0x85), (0xA0, 0xA0), (0x1680, 0x1680), (0x2000, 0x200A),
   (0x2028, 0x2029), (0x202F, 0x202F), (0x205F, 0x205F), (0x3000, 0x3000)]

/-- Whether a character is blank. -/
def isBlank (c : Char) : Bool := blanks.contains c.toNat

/-- The characters without the blank ones at both ends. -/
def stripBlanks (cs : List Char) : List Char :=
  ((cs.dropWhile isBlank).reverse.dropWhile isBlank).reverse

end TaintWeave.Text

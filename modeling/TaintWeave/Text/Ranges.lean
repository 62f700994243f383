/-!
# Sets of characters

A set of characters as a sorted list of ranges of code points, both ends
included.

* `Ranges.contains`: membership, by a scan that stops at the first range beyond
  the character.
-/

namespace TaintWeave

/-- Ranges of code points in increasing order. -/
abbrev Ranges := List (Nat × Nat)

/-- Whether a code point lies in one of the ranges. -/
def Ranges.contains (code : Nat) : Ranges → Bool
  | [] => false
  | (first, last) :: rest =>
    if code < first then false else code ≤ last || Ranges.contains code rest

end TaintWeave

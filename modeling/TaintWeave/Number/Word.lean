import TaintWeave.Number.Power

/-!
# Words of 32 bits

A word is held as the integer from `-2 ^ 31` to below `2 ^ 31` that it denotes.

* `Word.ofInt`: the word of an integer, by the remainder modulo `2 ^ 32`.
* `Word.bits`: the same bits as a natural number.
-/

namespace TaintWeave.Word

/-- The number of words. -/
def count : Nat := pow2 32

/-- The word of an integer. -/
def ofInt (n : Int) : Int := n.bmod count

/-- The bits of a word as a natural number. -/
def bits (n : Int) : Nat := (n % count).toNat

/-- A bitwise operation on words. -/
def bitwise (f : Nat → Nat → Nat) (m n : Int) : Int := ofInt (f (bits m) (bits n))

/-- The word with all bits inverted. -/
def complement (n : Int) : Int := -n - 1

/-- The distance of a shift: the low five bits of a word. -/
def distance (n : Int) : Nat := bits n % 32

/-- A word shifted to the left. -/
def shiftLeft (m n : Int) : Int := ofInt (m * pow2 (distance n))

/-- A word shifted to the right, its sign filling the space. -/
def shiftRight (m n : Int) : Int := m / pow2 (distance n)

end TaintWeave.Word

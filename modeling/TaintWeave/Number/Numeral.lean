import TaintWeave.Fault
import TaintWeave.Number.Basic
import TaintWeave.Text.Blank

/-!
# Numerals

The texts that denote numbers. Without the blanks around it, a numeral is

* nothing, for zero;
* `0x`, `0o` or `0b` (or with a capital letter) and digits of that radix;
* an optional sign and decimal digits;
* an optional sign and `Infinity`, or a decimal: digits with an optional point
  and optional digits, or a point and digits, and an optional exponent.

Any other text denotes a NaN.

* `Numeral.read`: the form of a text.
* `Numeral.value`: the number that it denotes.
-/

namespace TaintWeave

/-- The forms of a numeral. -/
inductive Numeral where
  /-- Nothing but blanks. -/
  | empty
  /-- Digits after a radix mark. -/
  | radix (value : Nat)
  /-- A sign and decimal digits. -/
  | whole (negative : Bool) (digits : List Char)
  /-- A sign and the word for infinity. -/
  | infinity (negative : Bool)
  /-- A sign and a decimal that is not a whole numeral. -/
  | decimal (negative : Bool) (value : Decimal)
  /-- Not a numeral. -/
  | none
  deriving DecidableEq

namespace Numeral

/-- The value of a digit up to `f`, in either case. -/
def digitValue (c : Char) : Option Nat :=
  if '0' ≤ c ∧ c ≤ '9' then some (c.toNat - '0'.toNat)
  else if 'a' ≤ c ∧ c ≤ 'f' then some (c.toNat - 'a'.toNat + 10)
  else if 'A' ≤ c ∧ c ≤ 'F' then some (c.toNat - 'A'.toNat + 10)
  else Option.none

/-- Whether a character is a digit of a radix up to sixteen. -/
def isDigit (radix : Nat) (c : Char) : Bool := (digitValue c).any (· < radix)

/-- The number that digits denote. -/
def ofDigits (radix : Nat) (cs : List Char) : Nat :=
  cs.foldl (fun n c => n * radix + (digitValue c).getD 0) 0

/-- Whether the characters are digits, at least one. -/
def isDigits (radix : Nat) (cs : List Char) : Bool := !cs.isEmpty && cs.all (isDigit radix)

/-- The radix of a mark after a zero. -/
def radixOf (c : Char) : Option Nat :=
  if c = 'x' ∨ c = 'X' then some 16
  else if c = 'o' ∨ c = 'O' then some 8
  else if c = 'b' ∨ c = 'B' then some 2
  else Option.none

/-- Splits a sign off; whether it is minus, and the rest. -/
def splitSign : List Char → Bool × List Char
  | '-' :: cs => (true, cs)
  | '+' :: cs => (false, cs)
  | cs => (false, cs)

/-- An exponent: nothing, or a letter `e`, an optional sign and digits. -/
def readExponent : List Char → Option Int
  | [] => some 0
  | c :: cs =>
    let (negative, digits) := splitSign cs
    if (c = 'e' ∨ c = 'E') ∧ isDigits 10 digits then
      some (if negative then -(ofDigits 10 digits : Int) else ofDigits 10 digits)
    else Option.none

/-- Digits around an optional point, at least one, and an exponent. -/
def readDecimal (cs : List Char) : Option Decimal :=
  let whole := cs.takeWhile (isDigit 10)
  let (fraction, rest) :=
    match cs.dropWhile (isDigit 10) with
    | '.' :: tail => (tail.takeWhile (isDigit 10), tail.dropWhile (isDigit 10))
    | tail => ([], tail)
  if whole.isEmpty && fraction.isEmpty then Option.none
  else (readExponent rest).map fun exponent =>
    ⟨ofDigits 10 (whole ++ fraction), exponent - fraction.length⟩

/-- The form of the text after a sign. -/
def readUnsigned (negative : Bool) (cs : List Char) : Numeral :=
  if isDigits 10 cs then .whole negative cs
  else if cs = "Infinity".toList then .infinity negative
  else match readDecimal cs with
    | some d => .decimal negative d
    | Option.none => .none

/-- The form of a text without blanks around it. -/
def readBare : List Char → Numeral
  | [] => .empty
  | cs@('0' :: mark :: digits) =>
    match radixOf mark with
    | some r => if isDigits r digits then .radix (ofDigits r digits) else .none
    | Option.none => readUnsigned false cs
  | cs =>
    let (negative, rest) := splitSign cs
    readUnsigned negative rest

/-- The form of a text. -/
def read (s : String) : Numeral := readBare (Text.stripBlanks s.toList)

/-- The greatest number of digits of a whole numeral that is read. -/
def digitLimit : Nat := 4300

/-- An integer with a sign. -/
def signed (negative : Bool) (n : Nat) : Int := if negative then -(n : Int) else n

/-- The number that a numeral denotes. -/
def value : Numeral → Except Fault Number
  | .empty => .ok (.int 0)
  | .radix n => .ok (.ofInt n)
  | .whole negative digits =>
    if digits.length ≤ digitLimit then .ok (.ofInt (signed negative (ofDigits 10 digits)))
    else .error .numeralTooLong
  | .infinity negative => .ok (.float (.infinite negative))
  | .decimal negative d => .ok (.float (.ofDecimal negative d))
  | .none => .ok (.float .nan)

end Numeral

end TaintWeave

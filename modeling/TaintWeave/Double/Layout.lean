import TaintWeave.Double.Shortest

/-!
# Numbers as text

A number is written with the digits of its shortest decimal. A `Layout` decides
the rest: which magnitudes are written with a point alone and which with an
exponent, how an exponent looks, and the words for infinity and NaN.

* `Layout.plain`: the text of a number in reports and generated code.
* `Layout.json`: the text of a number in a JSON document.
-/

namespace TaintWeave

/-- The choices left when the digits of a number are known. -/
structure Layout where
  /-- The least magnitude written without an exponent. -/
  leastPositional : Int
  /-- The greatest magnitude written without an exponent. -/
  greatestPositional : Int
  /-- What follows a whole number that is written without an exponent. -/
  wholeEnding : String
  /-- The least number of digits of an exponent. -/
  exponentWidth : Nat
  /-- Whether `-0` keeps its sign. -/
  signedZero : Bool
  /-- The word for the positive infinity. -/
  infinity : String
  /-- The word for a NaN. -/
  nan : String

namespace Layout

/-- A point alone from `10 ^ (-4)` to below `10 ^ 16`; a whole number ends in
    `.0`, and an exponent has two digits or more. -/
def plain : Layout where
  leastPositional := -4
  greatestPositional := 15
  wholeEnding := ".0"
  exponentWidth := 2
  signedZero := true
  infinity := "inf"
  nan := "nan"

/-- As `plain`, with the words that JSON readers know for the other numbers. -/
def json : Layout := { plain with infinity := "Infinity", nan := "NaN" }

/-- `count` zeros. -/
def zeros (count : Int) : String := String.ofList (List.replicate count.toNat '0')

/-- A decimal with a point alone. -/
def positional (l : Layout) (d : Decimal) : String :=
  let digits := Nat.toDigits 10 d.digits
  let point := (digits.length : Int) + d.exponent
  if 0 ≤ d.exponent then String.ofList digits ++ zeros d.exponent ++ l.wholeEnding
  else if 0 < point then
    String.ofList (digits.take point.toNat) ++ "." ++ String.ofList (digits.drop point.toNat)
  else "0." ++ zeros (-point) ++ String.ofList digits

/-- A decimal with one digit before the point and an exponent. -/
def scientific (l : Layout) (d : Decimal) : String :=
  let digits := Nat.toDigits 10 d.digits
  let exponent := Nat.toDigits 10 d.magnitude.natAbs
  let fraction := if digits.length ≤ 1 then "" else "." ++ String.ofList (digits.drop 1)
  String.ofList (digits.take 1) ++ fraction ++ "e" ++ (if d.magnitude < 0 then "-" else "+") ++
    zeros (l.exponentWidth - exponent.length) ++ String.ofList exponent

/-- The text of a positive decimal. -/
def writeDecimal (l : Layout) (d : Decimal) : String :=
  if l.leastPositional ≤ d.magnitude ∧ d.magnitude ≤ l.greatestPositional then l.positional d
  else l.scientific d

/-- The text of a number. -/
def write (l : Layout) : Double → String
  | .nan => l.nan
  | .infinite negative => (if negative then "-" else "") ++ l.infinity
  | .finite negative m e _ =>
    if m = 0 then (if negative && l.signedZero then "-" else "") ++ "0" ++ l.wholeEnding
    else (if negative then "-" else "") ++ l.writeDecimal (Double.shortest m e)

end Layout

end TaintWeave

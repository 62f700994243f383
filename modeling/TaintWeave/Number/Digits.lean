import TaintWeave.Number.Numeral

/-!
# Digits of numbers

The text of a number in the instrumented language has the digits of its text in
a report. They are cut out of that text, with the place of the point, and laid
out anew: with a point alone from `10 ^ (-6)` to below `10 ^ 21`, and with an
exponent otherwise.

* `Double.cut`: the digits in a text, and where the point is.
* `Double.layOut`: digits around a point or with an exponent.
* `Number.toText`: the text of a number in the instrumented language.
-/

namespace TaintWeave

namespace Double

/-- What comes before the first mark in a text, and what comes after it. -/
def splitAtMark (mark : Char) (cs : List Char) : List Char × List Char :=
  (cs.takeWhile (· != mark), (cs.dropWhile (· != mark)).drop 1)

/-- The integer that an optional sign and digits denote; zero if there are none. -/
def readInteger (cs : List Char) : Int :=
  let (negative, digits) := Numeral.splitSign cs
  Numeral.signed negative (Numeral.ofDigits 10 digits)

/-- The digits `d₁ … dₖ` in the text of a positive number, without the zeros at
    both ends, and the `point` for which it is `0.d₁ … dₖ * 10 ^ point`. -/
def cut (text : List Char) : List Char × Int :=
  let (mantissa, exponent) := splitAtMark 'e' text
  let (whole, fraction) := splitAtMark '.' mantissa
  let digits := whole ++ fraction
  let stripped := digits.dropWhile (· == '0')
  let point := (whole.length : Int) + readInteger exponent
  ((stripped.reverse.dropWhile (· == '0')).reverse,
    point - ((digits.length : Int) - stripped.length))

/-- The text of `0.d₁ … dₖ * 10 ^ point`, for the digits `d₁ … dₖ`. -/
def layOut (digits : List Char) (point : Int) : String :=
  let count : Int := digits.length
  if count ≤ point ∧ point ≤ 21 then String.ofList digits ++ Layout.zeros (point - count)
  else if 0 < point ∧ point ≤ 21 then
    String.ofList (digits.take point.toNat) ++ "." ++ String.ofList (digits.drop point.toNat)
  else if -6 < point ∧ point ≤ 0 then "0." ++ Layout.zeros (-point) ++ String.ofList digits
  else
    let exponent := "e" ++ (if 1 ≤ point then "+" else "-") ++ toString (point - 1).natAbs
    if count = 1 then String.ofList digits ++ exponent
    else String.ofList (digits.take 1) ++ "." ++ String.ofList (digits.drop 1) ++ exponent

/-- The text of a double in the instrumented language: the digits of its absolute
    value, and a minus if it is negative. Zero has no sign. -/
def toText : Double → String
  | nan => "NaN"
  | infinite negative => if negative then "-Infinity" else "Infinity"
  | finite negative m e canonical =>
    if m = 0 then "0"
    else
      let (digits, point) := cut (Layout.plain.write (finite false m e canonical)).toList
      (if negative then "-" else "") ++ layOut digits point

end Double

/-- The text of a number in the instrumented language. -/
def Number.toText (x : Number) : String :=
  match x.normalize with
  | .int n => toString n
  | .float x => x.toText

end TaintWeave

/-
Module: Plotline.Number.Text
Layer: Number
Purpose: The text of a number, as it is printed, drawn and quoted in error messages. Finite numbers are
  written with the fewest digits that read back, always positionally and without an exponent; a whole
  number has no decimal point.
Main exports: Number.text
-/
import Plotline.Number.Shortest

namespace Plotline

namespace Number

/-- A decimal written out positionally: zeros are put before or after the digits as the exponent asks. -/
def Decimal.positional (d : Decimal) : List Char :=
  let digits := Nat.toDigits 10 d.digits
  if 0 ≤ d.exponent then digits ++ List.replicate d.exponent.toNat '0'
  else
    let places := (-d.exponent).toNat
    let padded := List.replicate (places + 1 - digits.length) '0' ++ digits
    padded.take (padded.length - places) ++ '.' :: padded.drop (padded.length - places)

/-- A decimal without the zeros its digits end with, for digits other than zero. Each round drops one. -/
def Decimal.reduce : Nat → Decimal → Decimal
  | 0, d => d
  | rounds + 1, d => if d.digits % 10 == 0 then reduce rounds ⟨d.digits / 10, d.exponent + 1⟩ else d

/-- The text of a magnitude. -/
def Magnitude.text (m : Magnitude) : List Char :=
  if m.significand == 0 then ['0']
  else
    let d := shortest m
    (Decimal.reduce (digitCount d.digits) d).positional

/-- The characters of a number's text. Zero keeps its sign, and a number that is no number has none. -/
def characters (x : Float) : List Char :=
  if isNaN x then "NaN".toList
  else
    let unsigned := if isFinite x then (magnitude x).text else "inf".toList
    if isNegative x then '-' :: unsigned else unsigned

/-- The text of a number. -/
def text (x : Float) : String :=
  String.ofList (characters x)

end Number

end Plotline

/-
Module: Plotline.Number.Reader
Layer: Number
Purpose: Reading a number. The grammar is an optional sign, then a word for infinity or for no number in any
  case, or digits with an optional point and an optional exponent; at least one digit stands before the
  exponent. The value is rounded correctly, a magnitude too large is infinite and one too small is zero.
Main exports: Number.read?, Number.readNatural?
-/
import Plotline.Number.Binary

namespace Plotline

namespace Number

/-- The value of a digit string; characters that are no digits do not occur in it. -/
def ofDigits (cs : List Char) : Nat :=
  cs.foldl (fun n c => 10 * n + (c.toNat - '0'.toNat)) 0

/-- A natural number in decimal digits, at least one. -/
def digits? (cs : List Char) : Option Nat :=
  if !cs.isEmpty && cs.all Char.isDigit then some (ofDigits cs) else none

/-- A leading sign, if there is one, and the rest; `true` is minus. -/
def splitSign : List Char → Bool × List Char
  | '-' :: rest => (true, rest)
  | '+' :: rest => (false, rest)
  | cs => (false, cs)

/-- The exponent part of a number: nothing at all, or the mark, an optional sign and digits. -/
def readExponent? : List Char → Option Int
  | [] => some 0
  | c :: rest =>
      if c == 'e' || c == 'E' then
        let (negative, digits) := splitSign rest
        (digits? digits).map fun n => if negative then -(n : Int) else (n : Int)
      else none

/-- Decimal magnitudes at or above `10 ^ 400` are infinite and those below `10 ^ -400` are zero, whatever
    their digits are. Deciding them by their order alone keeps the powers of ten small. -/
def orderLimit : Int := 400

/-- The correctly rounded value of `significand · 10 ^ exponent`, where the significand was written with the
    given number of digits at most. -/
def ofDecimal (significand digitBound : Nat) (exponent : Int) : Float :=
  if significand == 0 then 0.0
  else if exponent > orderLimit then 1.0 / 0.0
  else if exponent + digitBound < -orderLimit then 0.0
  else Float.ofScientific significand (exponent < 0) exponent.natAbs

/-- An unsigned number written in digits. -/
def readDecimal? (cs : List Char) : Option Float :=
  let whole := cs.takeWhile Char.isDigit
  let rest := cs.dropWhile Char.isDigit
  let (fraction, rest) :=
    match rest with
    | '.' :: more => (more.takeWhile Char.isDigit, more.dropWhile Char.isDigit)
    | _ => ([], rest)
  let digits := whole ++ fraction
  if digits.isEmpty then none
  else
    (readExponent? rest).map fun exponent =>
      ofDecimal (ofDigits digits) digits.length (exponent - fraction.length)

/-- An unsigned number: a word for infinity or for no number, or digits. -/
def readMagnitude? (cs : List Char) : Option Float :=
  let folded := String.ofList (cs.map Char.toLower)
  if folded == "inf" || folded == "infinity" then some (1.0 / 0.0)
  else if folded == "nan" then some (0.0 / 0.0)
  else readDecimal? cs

/-- Reads a whole text as a number. -/
def read? (text : String) : Option Float :=
  let (negative, rest) := splitSign text.toList
  (readMagnitude? rest).map fun x => if negative then -x else x

/-- The first natural number that an array length cannot be. -/
def naturalLimit : Nat := power 2 64

/-- Reads a natural number below the limit: an optional plus sign and digits. -/
def readNatural? (text : String) : Option Nat :=
  let digits :=
    match text.toList with
    | '+' :: rest => rest
    | cs => cs
  (digits? digits).filter (· < naturalLimit)

end Number

end Plotline

/-
Module: Plotline.Number.Binary
Layer: Number
Purpose: The exact value of a binary floating-point number. A finite number is a sign and `significand ·
  2 ^ exponent`; everything that has to be exact (the digits of its text, whether it is whole) is decided
  on these natural numbers and never by rounding arithmetic.
Main exports: Number.Magnitude, Number.magnitude, Number.isNegative, Number.isFinite, Number.integer?
-/

namespace Plotline

namespace Number

/-- A power of a natural number; one when the exponent is negative. -/
def power (base : Nat) (exponent : Int) : Nat :=
  Nat.pow base exponent.toNat

/-- The magnitude of a finite number, `significand · 2 ^ exponent`. -/
structure Magnitude where
  significand : Nat
  exponent : Int
  /-- The gap to the next smaller magnitude is half the gap to the next larger one. That is so at the
      powers of two above the subnormal range. -/
  narrowBelow : Bool
  deriving DecidableEq, Repr

/-- Whether the sign bit is set; zero and a number that is no number have a sign too. -/
def isNegative (x : Float) : Bool :=
  x.toBits >>> 63 == 1

/-- The eleven exponent bits. -/
def exponentBits (x : Float) : Nat :=
  x.toBits.toNat / power 2 52 % power 2 11

/-- The fifty-two fraction bits. -/
def fractionBits (x : Float) : Nat :=
  x.toBits.toNat % power 2 52

/-- The number is neither infinite nor no number at all. -/
def isFinite (x : Float) : Bool :=
  exponentBits x != 0x7FF

/-- The number is no number at all. -/
def isNaN (x : Float) : Bool :=
  exponentBits x == 0x7FF && fractionBits x != 0

/-- The magnitude of a finite number. -/
def magnitude (x : Float) : Magnitude :=
  match exponentBits x with
  | 0 => ⟨fractionBits x, -1074, false⟩
  | e + 1 => ⟨power 2 52 + fractionBits x, (e : Int) - 1074, fractionBits x == 0 && e != 0⟩

/-- The magnitude as a natural number, if it is whole. -/
def Magnitude.natural? (m : Magnitude) : Option Nat :=
  if 0 ≤ m.exponent then some (m.significand * power 2 m.exponent)
  else
    let unit := power 2 (-m.exponent)
    if m.significand % unit == 0 then some (m.significand / unit) else none

/-- A finite whole number as an integer; nothing for a number that is infinite or has a fraction. -/
def integer? (x : Float) : Option Int :=
  if isFinite x then
    (magnitude x).natural?.map fun n => if isNegative x then -(n : Int) else (n : Int)
  else none

end Number

end Plotline

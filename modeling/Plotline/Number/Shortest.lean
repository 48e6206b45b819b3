/-
Module: Plotline.Number.Shortest
Layer: Number
Purpose: The fewest decimal digits that read back. A magnitude stands for the interval of reals that round
  to it; its ends belong to it when the significand is even. On the grid of decimals with one digit, then
  two, and so on, the two neighbours of the exact value are tried against that interval. The first grid with
  a hit wins, of two hits the nearer one, and of two equally near ones the larger.
Main exports: Number.Decimal, Number.shortest
-/
import Plotline.Number.Binary

namespace Plotline

namespace Number

/-- The decimal `digits · 10 ^ exponent`. -/
structure Decimal where
  digits : Nat
  exponent : Int
  deriving DecidableEq, Repr

/-- A magnitude and the ends of its rounding interval, all in units of `1 / unit`. -/
structure Interval where
  low : Nat
  value : Nat
  high : Nat
  unit : Nat
  /-- The ends themselves round to the magnitude. -/
  closed : Bool

/-- The reals that round to a magnitude. A quarter of the last binary place is the common unit, since the
    lower half-gap may be as small as that. -/
def Magnitude.interval (m : Magnitude) : Interval :=
  let below := if m.narrowBelow then 1 else 2
  let scale := power 2 (m.exponent - 2)
  { low := (4 * m.significand - below) * scale
    value := 4 * m.significand * scale
    high := (4 * m.significand + 2) * scale
    unit := power 2 (2 - m.exponent)
    closed := m.significand % 2 == 0 }

/-- The decimal lies in the interval. Both sides are brought to whole numbers first. -/
def Interval.contains (i : Interval) (d : Decimal) : Bool :=
  let up := power 10 (-d.exponent)
  let point := d.digits * power 10 d.exponent * i.unit
  if i.closed then i.low * up ≤ point && point ≤ i.high * up
  else i.low * up < point && point < i.high * up

/-- The number of decimal digits of a natural number; zero has one. -/
def digitCount (n : Nat) : Nat :=
  (Nat.toDigits 10 n).length

/-- The exponent `k` with `10 ^ (k - 1) ≤ value < 10 ^ k`, for a value that is not zero. -/
def Interval.scale (i : Interval) : Int :=
  if i.unit ≤ i.value then digitCount (i.value / i.unit)
  else 1 - (digitCount ((i.unit - 1) / i.value) : Int)

/-- The greatest decimal with the given exponent that does not exceed the value. -/
def Interval.floor (i : Interval) (exponent : Int) : Decimal :=
  ⟨i.value * power 10 (-exponent) / (i.unit * power 10 exponent), exponent⟩

/-- Whether the value lies below the midpoint between a decimal and the next one on its grid. -/
def Interval.nearerFloor (i : Interval) (d : Decimal) : Bool :=
  2 * i.value * power 10 (-d.exponent) < (2 * d.digits + 1) * power 10 d.exponent * i.unit

/-- The decimal of the grid with the given exponent that stands for the value, if one reads back. -/
def Interval.onGrid? (i : Interval) (exponent : Int) : Option Decimal :=
  let below := i.floor exponent
  let above : Decimal := ⟨below.digits + 1, exponent⟩
  match i.contains below, i.contains above with
  | true, true => some (if i.nearerFloor below then below else above)
  | true, false => some below
  | false, true => some above
  | false, false => none

/-- The exact decimal of a magnitude: a binary fraction ends after as many places as it has bits. -/
def Magnitude.exact (m : Magnitude) : Decimal :=
  ⟨m.significand * power 2 m.exponent * power 5 (-m.exponent), min m.exponent 0⟩

/-- The shortest decimal that rounds to a magnitude other than zero. Seventeen digits always suffice; the
    exact decimal stands behind the search so that it has an answer for every magnitude. -/
def shortest (m : Magnitude) : Decimal :=
  let i := m.interval
  let k := i.scale
  ((List.range 17).findSome? fun n : Nat => i.onGrid? (k - (n + 1))).getD m.exact

end Number

end Plotline

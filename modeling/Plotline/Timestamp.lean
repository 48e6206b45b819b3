/-
Module: Plotline.Timestamp
Layer: Session
Purpose: Moments in local time, and the file names of drawings, which carry the moment of saving.
Main exports: Timestamp, Timestamp.text, Timestamp.drawingName
-/

namespace Plotline

/-- A moment in local time, to the second. -/
structure Timestamp where
  year : Int
  month : Nat
  day : Nat
  hour : Nat
  minute : Nat
  second : Nat
  deriving DecidableEq, Repr, Inhabited

namespace Timestamp

/-- A number with zeros before it up to a least number of digits. -/
def padded (width n : Nat) : String :=
  let digits := Nat.toDigits 10 n
  String.ofList (List.replicate (width - digits.length) '0' ++ digits)

/-- A year in four digits at least; a year outside 0 to 9999 carries its sign. -/
def yearText (year : Int) : String :=
  let digits := padded 4 year.natAbs
  if year < 0 then "-" ++ digits
  else if 9999 < year then "+" ++ digits
  else digits

/-- The moment as digits: date, hyphen, time of day. -/
def text (t : Timestamp) : String :=
  yearText t.year ++ padded 2 t.month ++ padded 2 t.day ++ "-"
    ++ padded 2 t.hour ++ padded 2 t.minute ++ padded 2 t.second

/-- The file name of a drawing made by the program with the given stem. -/
def drawingName (stem : String) (t : Timestamp) : String :=
  stem ++ "-drawing_" ++ t.text ++ ".svg"

end Timestamp

end Plotline

/-
Module: Plotline.Label
Layer: Language
Purpose: The labels that mark source lines and that jumps name.
Main exports: Label, Label.isField, Label.isTarget
-/

namespace Plotline

/-- A line label. Labels are compared as text, so `010` and `10` are different. -/
abbrev Label := String

namespace Label

/-- The first field of a source line is a label: digits, at least one. -/
def isField (field : List Char) : Bool :=
  !field.isEmpty && field.all Char.isDigit

/-- A number literal can be a jump target: it is written with digits only. -/
def isTarget (text : String) : Bool :=
  text.toList.all Char.isDigit

end Label

end Plotline

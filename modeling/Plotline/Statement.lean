/-
Module: Plotline.Statement
Layer: Language
Purpose: Statements: a label and a command. Drawing commands are meant to stand between the start and the
  finish of a drawing; the region says which side of that boundary a place in a program is on.
Main exports: Comparison, Command, Statement, Region, Statement.text
-/
import Plotline.Expression
import Plotline.Label

namespace Plotline

/-- The comparisons of a conditional jump. -/
inductive Comparison where
  | equal
  | less
  | greater
  deriving DecidableEq, Repr

namespace Comparison

/-- Whether a comparison holds of two numbers. None holds of a number that is no number. -/
def holds : Comparison → Float → Float → Bool
  | equal, x, y => x == y
  | less, x, y => x < y
  | greater, x, y => y < x

/-- The sign of a comparison. -/
def text : Comparison → String
  | equal => "="
  | less => "<"
  | greater => ">"

end Comparison

/-- Whether a drawing has been started and not yet finished. -/
inductive Region where
  | closed
  | opened
  deriving DecidableEq, Repr, Inhabited

/-- What a statement does. -/
inductive Command where
  | dim (name : String) (length : Nat)
  | drawStart (width height : Expression)
  | drawFinish
  | halt
  | goto (target : Label)
  | branch (lhs : Expression) (comparison : Comparison) (rhs : Expression) (target : Label)
  | input (name : String)
  | assign (place : Variable) (value : Expression)
  | line (x1 y1 x2 y2 : Expression) (color : String)
  | plot (x y radius : Expression) (color : String) (filled : Bool)
  | print (value : Expression)
  | printText (text : String)
  | rectangle (x1 y1 x2 y2 : Expression) (color : String) (filled : Bool)
  deriving Repr, Inhabited

/-- A command under the label of its source line. -/
structure Statement where
  label : Label
  command : Command
  deriving Repr, Inhabited

/-- Texts with commas between them. -/
def commaList (texts : List String) : String :=
  ", ".intercalate texts

/-- The word that a filled figure ends with. -/
def fillText (filled : Bool) : String :=
  if filled then " FILL" else ""

/-- The text of a command. -/
def Command.text : Command → String
  | dim name length => "DIM " ++ name ++ " " ++ String.ofList (Nat.toDigits 10 length)
  | drawStart width height => "DRAW START " ++ commaList [width.text, height.text]
  | drawFinish => "DRAW FINISH"
  | halt => "END"
  | goto target => "GOTO " ++ target
  | branch lhs comparison rhs target =>
      "IF " ++ lhs.text ++ " " ++ comparison.text ++ " " ++ rhs.text ++ " THEN " ++ target
  | input name => "INPUT " ++ name
  | assign place value => "LET " ++ place.text ++ " = " ++ value.text
  | line x1 y1 x2 y2 color => "LINE " ++ commaList [x1.text, y1.text, x2.text, y2.text, color]
  | plot x y radius color filled =>
      "PLOT " ++ commaList [x.text, y.text, radius.text, color] ++ fillText filled
  | print value => "PRINT " ++ value.text
  | printText text => "PRINT \"" ++ text ++ "\""
  | rectangle x1 y1 x2 y2 color filled =>
      "RECTANGLE " ++ commaList [x1.text, y1.text, x2.text, y2.text, color] ++ fillText filled

/-- The text of a statement. -/
def Statement.text (s : Statement) : String :=
  s.label ++ " " ++ s.command.text

end Plotline

/-
Module: Plotline.Expression
Layer: Language
Purpose: Variables and arithmetic expressions, and their text. A subscript is a literal or a plain
  variable, never an expression. In the text of an expression every operation has its own parentheses.
Main exports: Subscript, Variable, Arithmetic, Expression, Expression.text
-/
import Plotline.Number.Text

namespace Plotline

/-- What stands between the brackets of an array element. -/
inductive Subscript where
  | literal (value : Float)
  | name (name : String)
  deriving DecidableEq, Repr

/-- A place that holds a number. -/
inductive Variable where
  | scalar (name : String)
  | element (name : String) (subscript : Subscript)
  deriving DecidableEq, Repr

/-- The arithmetic operations. -/
inductive Arithmetic where
  | power
  | times
  | divide
  | plus
  | minus
  deriving DecidableEq, Repr

/-- An arithmetic expression. A call keeps the name of its function, which need not exist. -/
inductive Expression where
  | number (value : Float)
  | var (place : Variable)
  | call (function : String) (arguments : List Expression)
  | binary (op : Arithmetic) (lhs rhs : Expression)
  deriving Repr, Inhabited

/-- The text of a subscript. -/
def Subscript.text : Subscript → String
  | literal x => Number.text x
  | name s => s

/-- The text of a variable. -/
def Variable.text : Variable → String
  | scalar s => s
  | element s i => s ++ "[" ++ i.text ++ "]"

/-- The sign of an operation. -/
def Arithmetic.text : Arithmetic → String
  | power => "^"
  | times => "*"
  | divide => "/"
  | plus => "+"
  | minus => "-"

mutual

/-- The text of an expression. -/
def Expression.text : Expression → String
  | .number x => Number.text x
  | .var place => place.text
  | .call function arguments =>
      function ++ "(" ++ ", ".intercalate (Expression.texts arguments) ++ ")"
  | .binary op lhs rhs => "(" ++ lhs.text ++ " " ++ op.text ++ " " ++ rhs.text ++ ")"

/-- The texts of several expressions. -/
def Expression.texts : List Expression → List String
  | [] => []
  | e :: rest => e.text :: Expression.texts rest

end

end Plotline

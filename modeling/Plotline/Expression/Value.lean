/-
Module: Plotline.Expression.Value
Layer: Machine
Purpose: The value of an expression in a memory. Operands and arguments are taken from left to right, and
  the first failure ends the evaluation.
Main exports: Arithmetic.apply, Expression.value, Expression.values
-/
import Plotline.Function
import Plotline.Memory

namespace Plotline

/-- Carries out an operation. -/
def Arithmetic.apply : Arithmetic → Float → Float → Float
  | power, x, y => x.pow y
  | times, x, y => x * y
  | divide, x, y => x / y
  | plus, x, y => x + y
  | minus, x, y => x - y

mutual

/-- The value of an expression. -/
def Expression.value (m : Memory) : Expression → Evaluation Float
  | .number x => pure x
  | .var place => Work.check (m.read place)
  | .call function arguments => do
      let xs ← Expression.values m arguments
      Function.call function xs
  | .binary op lhs rhs => do
      let x ← lhs.value m
      let y ← rhs.value m
      pure (op.apply x y)

/-- The values of several expressions, from left to right. -/
def Expression.values (m : Memory) : List Expression → Evaluation (List Float)
  | [] => pure []
  | e :: rest => do
      let x ← e.value m
      let xs ← Expression.values m rest
      pure (x :: xs)

end

end Plotline

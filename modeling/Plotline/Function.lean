/-
Module: Plotline.Function
Layer: Machine
Purpose: Calling a function by its name. Angles are in degrees. The random function takes any number of
  arguments and ignores them; every other function takes exactly one.
Main exports: Function.Arity, Function.arity?, Function.call
-/
import Plotline.Work
import Plotline.Token

namespace Plotline

namespace Function

/-- How many arguments a function takes; without an upper bound it takes any number from the lower on. -/
structure Arity where
  least : Nat
  most : Option Nat
  deriving DecidableEq, Repr

/-- The number of arguments is allowed. -/
def Arity.allows (a : Arity) (count : Nat) : Bool :=
  a.least ≤ count && a.most.all (count ≤ ·)

/-- The arity of a built-in function. -/
def arityOf : Builtin → Arity
  | .rnd => ⟨0, none⟩
  | _ => ⟨1, some 1⟩

/-- The arity of the function with a given name. -/
def arity? (name : String) : Option Arity :=
  (Builtin.ofText? name).map arityOf

/-- The circle constant. -/
def pi : Float := 3.141592653589793

/-- An angle in degrees, in radians. -/
def radians (x : Float) : Float :=
  x * (pi / 180.0)

/-- The report on a wrong number of arguments. -/
def wrongCount (name : String) (arity : Arity) (count : Nat) : Diagnostic :=
  let least := String.ofList (Nat.toDigits 10 arity.least)
  let count := String.ofList (Nat.toDigits 10 count)
  { code := .illegalFunctionCall, detail := name ++ " TAKES " ++ least ++ " ARGUMENT, GOT " ++ count }

/-- Draws the value of a random call. -/
def random : Evaluation Float :=
  modifyGet Generator.uniform

/-- The value of a function at its first argument, which the random function does not look at. -/
def valueAt (x : Float) : Builtin → Evaluation Float
  | .abs => pure x.abs
  | .cos => pure (radians x).cos
  | .exp => pure x.exp
  | .log => pure x.log
  | .rnd => random
  | .sin => pure (radians x).sin
  | .sqr => pure x.sqrt
  | .tan => pure (radians x).tan

/-- Calls the function with a given name. -/
def call (name : String) (arguments : List Float) : Evaluation Float :=
  match Builtin.ofText? name with
  | none => throw { code := .unsupportedFunction, detail := name }
  | some function =>
      if (arityOf function).allows arguments.length then valueAt (arguments.headD 0.0) function
      else throw (wrongCount name (arityOf function) arguments.length)

end Function

end Plotline

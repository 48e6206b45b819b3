/-
Module: Plotline.Action
Layer: Machine
Purpose: What a command comes down to once its operands are known. Planning evaluates the operands and makes
  every check; it can fail, but it changes neither variables nor drawing. An action that has been planned
  is then carried out without fail.
Main exports: Action, Command.plan
-/
import Plotline.Canvas
import Plotline.Expression.Value
import Plotline.Program

namespace Plotline

/-- An action on the machine. -/
inductive Action where
  /-- Go on with the next statement. -/
  | proceed
  | jump (address : Nat)
  | halt
  | put (slot : Memory.Slot) (value : Float)
  | addArray (name : String) (length : Nat)
  | print (text : String)
  /-- Wait for the value of a variable. -/
  | ask (name : String)
  | startDrawing (width height : Float)
  | draw (figure : Figure)
  | finishDrawing
  deriving Repr

namespace Command

open Work (check)

/-- The action of a figure, once its operands are known. -/
def planFigure (canvas : Canvas) (figure : Figure) : Evaluation Action := do
  check canvas.requireOpen
  pure (.draw figure)

/-- The action that a command comes down to. -/
def plan (program : Program) (memory : Memory) (canvas : Canvas) : Command → Evaluation Action
  | .dim name length => do
      check (memory.canDimension name length)
      pure (.addArray name length)
  | .drawStart width height => do
      let width ← width.value memory
      let height ← height.value memory
      check canvas.requireClosed
      pure (.startDrawing width height)
  | .drawFinish => do
      check canvas.requireOpen
      pure .finishDrawing
  | .halt => pure .halt
  | .goto target => do
      let address ← check (program.addressOf target)
      pure (.jump address)
  | .branch lhs comparison rhs target => do
      let x ← lhs.value memory
      let y ← rhs.value memory
      if comparison.holds x y then
        let address ← check (program.addressOf target)
        pure (.jump address)
      else pure .proceed
  | .input name => do
      discard (check (memory.locate (.scalar name)))
      pure (.ask name)
  | .assign place value => do
      let x ← value.value memory
      let slot ← check (memory.locate place)
      pure (.put slot x)
  | .line x1 y1 x2 y2 color => do
      let x1 ← x1.value memory
      let y1 ← y1.value memory
      let x2 ← x2.value memory
      let y2 ← y2.value memory
      planFigure canvas (.line x1 y1 x2 y2 color)
  | .plot x y radius color filled => do
      let x ← x.value memory
      let y ← y.value memory
      let radius ← radius.value memory
      planFigure canvas (.circle x y radius color filled)
  | .print value => do
      let x ← value.value memory
      pure (.print (Number.text x))
  | .printText text => pure (.print text)
  | .rectangle x1 y1 x2 y2 color filled => do
      let x1 ← x1.value memory
      let y1 ← y1.value memory
      let x2 ← x2.value memory
      let y2 ← y2.value memory
      planFigure canvas (.rectangle x1 y1 x2 y2 color filled)

end Command

end Plotline

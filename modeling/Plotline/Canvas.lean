/-
Module: Plotline.Canvas
Layer: Machine
Purpose: The drawing under way, as lines of an SVG document. Starting puts the root tag first, each figure
  adds one line, and finishing closes the root and hands out the document.
Main exports: Figure, Figure.element, Canvas, Canvas.start, Canvas.draw, Canvas.finish,
  Canvas.Operation, Canvas.perform
-/
import Plotline.Number.Text
import Plotline.Text.Blank
import Plotline.Work

namespace Plotline

/-- A drawn figure. A rectangle is given by any two opposite corners. -/
inductive Figure where
  | circle (x y radius : Float) (color : String) (filled : Bool)
  | line (x1 y1 x2 y2 : Float) (color : String)
  | rectangle (x1 y1 x2 y2 : Float) (color : String) (filled : Bool)
  deriving DecidableEq, Repr

namespace Figure

/-- The smaller of two numbers; one that is no number is passed over for the other. -/
def least (x y : Float) : Float :=
  if Number.isNaN y || x < y then x else y

/-- A colour as it stands in the document. -/
def paint (color : String) : String :=
  String.ofList (Text.lower color.toList)

/-- The colour inside a figure. -/
def fill (color : String) (filled : Bool) : String :=
  if filled then paint color else "none"

/-- An attribute with the space before it. -/
def attributeText (name value : String) : String :=
  " " ++ name ++ "=\"" ++ value ++ "\""

/-- The name of a figure's element. -/
def tag : Figure → String
  | circle .. => "circle"
  | line .. => "line"
  | rectangle .. => "rect"

/-- The attributes of a figure's element, in order. -/
def attributes : Figure → List (String × String)
  | circle x y radius color filled =>
      [("cx", Number.text x), ("cy", Number.text y), ("r", Number.text radius),
        ("stroke", paint color), ("fill", fill color filled)]
  | line x1 y1 x2 y2 color =>
      [("x1", Number.text x1), ("y1", Number.text y1), ("x2", Number.text x2),
        ("y2", Number.text y2), ("stroke", paint color)]
  | rectangle x1 y1 x2 y2 color filled =>
      [("x", Number.text (least x1 x2)), ("y", Number.text (least y1 y2)),
        ("width", Number.text (x2 - x1).abs), ("height", Number.text (y2 - y1).abs),
        ("stroke", paint color), ("fill", fill color filled)]

/-- An element with a tag and attributes. -/
def markup (tag : String) (attributes : List (String × String)) : String :=
  "<" ++ tag ++ String.join (attributes.map fun (name, value) => attributeText name value) ++ " />"

/-- The line of the document that draws a figure. -/
def element (f : Figure) : String :=
  markup f.tag f.attributes

end Figure

/-- The drawing under way: the lines of its document so far. -/
structure Canvas where
  elements : Array String := #[]
  isOpen : Bool := false
  deriving DecidableEq, Repr, Inhabited

namespace Canvas

/-- No drawing. -/
def empty : Canvas := {}

/-- The line that opens a document of a given size. -/
def rootTag (width height : Float) : String :=
  "<svg" ++ Figure.attributeText "xmlns" "http://www.w3.org/2000/svg"
    ++ Figure.attributeText "width" (Number.text width)
    ++ Figure.attributeText "height" (Number.text height) ++ ">"

/-- The line that closes a document. -/
def closingTag : String := "</svg>"

/-- Goes on only when no drawing is under way. -/
def requireClosed (c : Canvas) : Except Diagnostic Unit :=
  if c.isOpen then .error { code := .drawingAlreadyStarted } else .ok ()

/-- Goes on only when a drawing is under way. -/
def requireOpen (c : Canvas) : Except Diagnostic Unit :=
  if c.isOpen then .ok () else .error { code := .noDrawingStarted }

/-- The canvas of a drawing that has just been started. -/
def blank (width height : Float) : Canvas :=
  { elements := #[rootTag width height], isOpen := true }

/-- The canvas with one more figure. -/
def add (c : Canvas) (f : Figure) : Canvas :=
  { c with elements := c.elements.push f.element }

/-- Lines as a text in which each of them ends with a line feed. -/
def joinLines (lines : List String) : String :=
  "\n".intercalate lines ++ "\n"

/-- The document of the drawing under way, as it would be if finished now. -/
def document (c : Canvas) : String :=
  joinLines (c.elements.toList ++ [closingTag])

/-! ### Operations -/

/-- Starts a drawing. -/
def start (width height : Float) : Work Canvas Unit := do
  if (← get).isOpen then throw { code := .drawingAlreadyStarted }
  modify ({ · with elements := #[] })
  modify fun c => { c with elements := c.elements.push (rootTag width height) }
  modify ({ · with isOpen := true })

/-- Adds a figure to the drawing. -/
def draw (f : Figure) : Work Canvas Unit := do
  if !(← get).isOpen then throw { code := .noDrawingStarted }
  modify fun c => { c with elements := c.elements.push f.element }

/-- Drops the drawing. -/
def clear : Work Canvas Unit := do
  modify ({ · with elements := #[] })
  modify ({ · with isOpen := false })

/-- Finishes the drawing and gives its document. -/
def finish : Work Canvas String := do
  if !(← get).isOpen then throw { code := .noDrawingStarted }
  modify fun c => { c with elements := c.elements.push closingTag }
  let lines := (← get).elements.toList
  clear
  pure (joinLines lines)

/-- What can be asked of a canvas. -/
inductive Operation where
  | start (width height : Float)
  | draw (figure : Figure)
  | finish
  | clear

/-- The work of an operation, which gives a document if it finishes a drawing. -/
def Operation.work : Operation → Work Canvas (Option String)
  | start width height => do
      Canvas.start width height
      pure none
  | draw figure => do
      Canvas.draw figure
      pure none
  | finish => do
      let document ← Canvas.finish
      pure (some document)
  | clear => do
      Canvas.clear
      pure none

/-- Carries out an operation: its document, if it has one, or a report, and the canvas after it. -/
def perform (c : Canvas) (op : Operation) : Except Diagnostic (Option String) × Canvas :=
  op.work.runFrom c

end Canvas

end Plotline

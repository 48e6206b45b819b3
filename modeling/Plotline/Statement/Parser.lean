/-
Module: Plotline.Statement.Parser
Layer: Language
Purpose: Reading a token list as labelled statements. A label applies to the statements after it up to the
  next label, and reading stops at the end of the line. The region is threaded through: starting a drawing
  needs a closed region, and finishing it or drawing in it an open one.
Main exports: Command.parse, Statement.parseAll
-/
import Plotline.Expression.Parser
import Plotline.Statement

namespace Plotline

namespace Command

/-- A name. -/
def parseName : Reader String
  | .name name :: rest => .ok (name, rest)
  | _ => .error .expectedName

/-- The target of a jump: a number literal written with digits only. -/
def parseTarget : Reader Label
  | .number text :: rest => if Label.isTarget text then .ok (text, rest) else .error .expectedLabel
  | _ => .error .expectedLabel

/-- A comparison. -/
def parseComparison : Reader Comparison
  | .operator .equal :: rest => .ok (.equal, rest)
  | .operator .less :: rest => .ok (.less, rest)
  | .operator .greater :: rest => .ok (.greater, rest)
  | _ => .error .expectedComparison

/-- The length of an array: a number literal that is a natural number. -/
def parseLength : Reader Nat
  | .number text :: rest =>
      match Number.readNatural? text with
      | some length => .ok (length, rest)
      | none => .error .expectedLength
  | _ => .error .expectedLength

/-- The place that an assignment writes to. -/
def parsePlace (tokens : List Token) : Read (Variable × List Token) := do
  let (name, rest) ← parseName tokens
  match rest with
  | .openBracket :: rest =>
      let (subscript, rest) ← Expression.parseSubscript rest
      .ok (.element name subscript, rest)
  | _ => .ok (.scalar name, rest)

/-- An equals sign. -/
def parseEqual : Reader Unit
  | .operator .equal :: rest => .ok ((), rest)
  | _ => .error .expectedEqual

/-- A comma. -/
def parseComma : Reader Unit
  | .comma :: rest => .ok ((), rest)
  | _ => .error .expectedComma

/-- The word before the target of a conditional jump. -/
def parseThen : Reader Unit
  | .name "THEN" :: rest => .ok ((), rest)
  | _ => .error .expectedThen

/-- An expression and the comma after it. -/
def parseCoordinate (tokens : List Token) : Read (Expression × List Token) := do
  let (e, rest) ← Expression.parse tokens
  let ((), rest) ← parseComma rest
  .ok (e, rest)

/-- The colour of a figure, and whether it is filled. -/
def parsePaint : Reader (String × Bool)
  | .name color :: .name "FILL" :: rest => .ok ((color, true), rest)
  | .name color :: rest => .ok ((color, false), rest)
  | _ => .error .expectedColor

/-- Goes on only outside a drawing. -/
def requireClosed : Region → Read Unit
  | .closed => .ok ()
  | .opened => .error .drawingAlreadyStarted

/-- Goes on only inside a drawing. -/
def requireOpened : Region → Read Unit
  | .opened => .ok ()
  | .closed => .error .noDrawingStarted

/-- A dimension: the name and length of an array. -/
def parseDim (tokens : List Token) : Read (Command × List Token) := do
  let (name, rest) ← parseName tokens
  let (length, rest) ← parseLength rest
  .ok (.dim name length, rest)

/-- An assignment. -/
def parseAssign (tokens : List Token) : Read (Command × List Token) := do
  let (place, rest) ← parsePlace tokens
  let ((), rest) ← parseEqual rest
  let (value, rest) ← Expression.parse rest
  .ok (.assign place value, rest)

/-- A print: one quoted text or one expression. -/
def parsePrint : Reader Command
  | .quoted text :: rest => .ok (.printText text, rest)
  | tokens => do
      let (value, rest) ← Expression.parse tokens
      .ok (.print value, rest)

/-- A conditional jump. -/
def parseBranch (tokens : List Token) : Read (Command × List Token) := do
  let (lhs, rest) ← Expression.parse tokens
  let (comparison, rest) ← parseComparison rest
  let (rhs, rest) ← Expression.parse rest
  let ((), rest) ← parseThen rest
  let (target, rest) ← parseTarget rest
  .ok (.branch lhs comparison rhs target, rest)

/-- The start or the finish of a drawing. The region is checked before the operands are read. -/
def parseDraw (region : Region) : Reader Command
  | .name "START" :: rest => do
      requireClosed region
      let (width, rest) ← parseCoordinate rest
      let (height, rest) ← Expression.parse rest
      .ok (.drawStart width height, rest)
  | .name "FINISH" :: rest => do
      requireOpened region
      .ok (.drawFinish, rest)
  | _ => .error .expectedPhase

/-- A circle. -/
def parsePlot (region : Region) (tokens : List Token) : Read (Command × List Token) := do
  requireOpened region
  let (x, rest) ← parseCoordinate tokens
  let (y, rest) ← parseCoordinate rest
  let (radius, rest) ← parseCoordinate rest
  let ((color, filled), rest) ← parsePaint rest
  .ok (.plot x y radius color filled, rest)

/-- A straight line. It may be marked as filled, which means nothing for it. -/
def parseLine (region : Region) (tokens : List Token) : Read (Command × List Token) := do
  requireOpened region
  let (x1, rest) ← parseCoordinate tokens
  let (y1, rest) ← parseCoordinate rest
  let (x2, rest) ← parseCoordinate rest
  let (y2, rest) ← parseCoordinate rest
  let ((color, _), rest) ← parsePaint rest
  .ok (.line x1 y1 x2 y2 color, rest)

/-- A rectangle. -/
def parseRectangle (region : Region) (tokens : List Token) : Read (Command × List Token) := do
  requireOpened region
  let (x1, rest) ← parseCoordinate tokens
  let (y1, rest) ← parseCoordinate rest
  let (x2, rest) ← parseCoordinate rest
  let (y2, rest) ← parseCoordinate rest
  let ((color, filled), rest) ← parsePaint rest
  .ok (.rectangle x1 y1 x2 y2 color filled, rest)

/-- The operands of a command word. -/
def parseWord (region : Region) : Word → Reader Command
  | .dim, tokens => parseDim tokens
  | .draw, tokens => parseDraw region tokens
  | .halt, tokens => .ok (.halt, tokens)
  | .goto, tokens => do
      let (target, rest) ← parseTarget tokens
      .ok (.goto target, rest)
  | .branch, tokens => parseBranch tokens
  | .input, tokens => do
      let (name, rest) ← parseName tokens
      .ok (.input name, rest)
  | .assign, tokens => parseAssign tokens
  | .line, tokens => parseLine region tokens
  | .plot, tokens => parsePlot region tokens
  | .print, tokens => parsePrint tokens
  | .rectangle, tokens => parseRectangle region tokens

/-- Reads a command off the front of a token list. -/
def parse (region : Region) : Reader Command
  | .word word :: rest => parseWord region word rest
  | tokens => .error (.expectedStatement tokens.head?)

/-- The region after a command, when it was `region` before it. -/
def regionAfter (region : Region) : Command → Region
  | .drawStart .. => .opened
  | .drawFinish => .closed
  | _ => region

end Command

namespace Statement

/-- Reads labels and statements up to the end of the line. The fuel is the number of tokens; every label and
    every statement uses up at least one of them. -/
def parseItems : Nat → Option Label → Region → List Token → Except Diagnostic (List Statement × Region)
  | _, _, region, [] => .ok ([], region)
  | _, _, region, .endOfLine :: _ => .ok ([], region)
  | 0, _, region, _ => .ok ([], region)
  | fuel + 1, _, region, .label label :: rest => parseItems fuel (some label) region rest
  | _ + 1, none, _, _ => .error Complaint.expectedLabel.diagnostic
  | fuel + 1, some label, region, tokens =>
      match Command.parse region tokens with
      | .error complaint => .error (complaint.diagnostic.inLabel label)
      | .ok (command, rest) => do
          let (more, last) ← parseItems fuel (some label) (command.regionAfter region) rest
          .ok (⟨label, command⟩ :: more, last)

/-- Reads a token list as statements, starting in the given region; also gives the region after them. -/
def parseAll (region : Region) (tokens : List Token) : Except Diagnostic (List Statement × Region) :=
  parseItems tokens.length none region tokens

end Statement

end Plotline

/-
Module: Plotline.Token.Shape
Layer: Language
Purpose: Coarse checks on the tokens of a line, by its command word: counts, fixed positions and the last
  token. They give a report that quotes the line before the tokens are read as a statement. Tokens at fixed
  places are looked up with a check, and a place beyond the end is a flaw of its own.
Main exports: Shape.Flaw, Shape.check, Shape.diagnose
-/
import Plotline.Diagnostic
import Plotline.Token

namespace Plotline

namespace Shape

/-- What is wrong with the shape of a statement. -/
inductive Flaw where
  /-- The tokens do not fit the command word; nothing more is said. -/
  | misfit
  | missingValue
  | missingValueAfterOperator
  | mismatchedParentheses
  | mismatchedBrackets
  | missingThen
  | missingCoordinates
  | missingColor
  /-- A token was looked up beyond either end of the line. -/
  | outOfReach
  deriving DecidableEq, Repr

/-- The words a flaw adds to the report; empty when it adds none. -/
def Flaw.text : Flaw → String
  | misfit | outOfReach => ""
  | missingValue => "MISSING VALUE"
  | missingValueAfterOperator => "MISSING VALUE AFTER OPERATOR"
  | mismatchedParentheses => "MISMATCHED PARENTHESES"
  | mismatchedBrackets => "MISMATCHED BRACKETS"
  | missingThen => "MISSING THEN"
  | missingCoordinates => "MISSING COORDINATES"
  | missingColor => "MISSING COLOR"

/-- The outcome of a check. -/
abbrev Check := Except Flaw

/-- Goes on only if a condition holds. -/
def require (flaw : Flaw) (holds : Bool) : Check Unit :=
  if holds then .ok () else .error flaw

/-- The token at a place that is expected to exist. -/
def reach (tokens : List Token) (place : Nat) : Check Token :=
  match tokens[place]? with
  | some token => .ok token
  | none => .error .outOfReach

/-- The token at a place counted from the end, where the end of the line itself has place zero. -/
def reachBack (tokens : List Token) (place : Nat) : Check Token :=
  reach tokens.reverse place

/-- The token may stand between the brackets of an array element. -/
def isSubscript (token : Token) : Bool :=
  token.isName || token.isNumber

/-- The tokens after the equals sign of an assignment to a variable or an array element. -/
def assigned? : List Token → Option (List Token)
  | .word _ :: .name _ :: .operator .equal :: value => some value
  | .word _ :: .name _ :: .openBracket :: subscript :: .closeBracket :: .operator .equal :: value =>
      if isSubscript subscript then some value else none
  | _ => none

/-- An assignment has a target, and a value that does not end in an operator. -/
def checkAssign (tokens : List Token) (last : Token) : Check Unit :=
  match assigned? tokens with
  | none => .error .misfit
  | some value => do
      require .missingValue (value.head? != some .endOfLine)
      require .missingValueAfterOperator !last.isOperator

/-- A dimension is a name and a number. -/
def checkDim (tokens : List Token) : Check Unit := do
  require .misfit (tokens.length == 4)
  require .misfit (← reach tokens 1).isName
  require .misfit (← reach tokens 2).isNumber

/-- There is something to print, and parentheses and brackets are balanced in number. -/
def checkPrint (tokens : List Token) : Check Unit := do
  require .misfit (3 ≤ tokens.length)
  require .mismatchedParentheses (tokens.count .openParen == tokens.count .closeParen)
  require .mismatchedBrackets (tokens.count .openBracket == tokens.count .closeBracket)

/-- A jump is a number. -/
def checkGoto (tokens : List Token) : Check Unit := do
  require .misfit (tokens.length == 3)
  require .misfit (← reach tokens 1).isNumber

/-- A conditional jump compares something before its first THEN, and one number follows that. -/
def checkBranch (tokens : List Token) : Check Unit :=
  match tokens.findIdx? (Token.isNamed "THEN") with
  | none => .error .missingThen
  | some place => do
      require .misfit (4 ≤ place)
      require .misfit ((tokens.take place).any Token.isComparison)
      require .misfit (tokens.length == place + 3)
      require .misfit (← reach tokens (place + 1)).isNumber

/-- Nothing follows the end of the program. -/
def checkHalt (tokens : List Token) : Check Unit :=
  require .misfit (tokens.length == 2)

/-- An input is a name. -/
def checkInput (tokens : List Token) : Check Unit := do
  require .misfit (tokens.length == 3)
  require .misfit (← reach tokens 1).isName

/-- A drawing is finished without operands, or started with some. -/
def checkDraw (tokens : List Token) : Check Unit := do
  let phase ← reach tokens 1
  if phase.isNamed "FINISH" then require .misfit (tokens.length == 3)
  else do
    require .misfit (phase.isNamed "START")
    require .misfit (5 ≤ tokens.length)

/-- A drawn figure has enough commas, and a name for its colour at the end or before a last FILL. -/
def checkFigure (commas : Nat) (tokens : List Token) (last : Token) : Check Unit := do
  require .missingCoordinates (commas ≤ tokens.count .comma)
  let color ← if last.isNamed "FILL" && 3 < tokens.length then reachBack tokens 2 else .ok last
  require .missingColor color.isName

/-- The check that goes with a command word. The tokens start with that word and end with the end of the
    line, and `last` is the token before it. -/
def checkWord (word : Word) (tokens : List Token) (last : Token) : Check Unit :=
  match word with
  | .assign => checkAssign tokens last
  | .dim => checkDim tokens
  | .print => checkPrint tokens
  | .goto => checkGoto tokens
  | .branch => checkBranch tokens
  | .halt => checkHalt tokens
  | .input => checkInput tokens
  | .draw => checkDraw tokens
  | .plot => checkFigure 3 tokens last
  | .line | .rectangle => checkFigure 4 tokens last

/-- Checks the tokens after a line's label. A line that starts with no command word passes. -/
def check (tokens : List Token) : Except (Word × Flaw) Unit :=
  match tokens with
  | .word word :: _ =>
      match reachBack tokens 1 with
      | .error flaw => .error (word, flaw)
      | .ok last => (checkWord word tokens last).mapError (word, ·)
  | _ => .ok ()

/-- The report on a flaw. It quotes the line; a token out of reach is no fault of the line. -/
def report (label : Label) (line : String) (word : Word) : Flaw → Diagnostic
  | .outOfReach => { code := .internalError, label := some label, detail := "TOKEN OUT OF REACH" }
  | flaw =>
      let more := if flaw.text.isEmpty then "" else "; " ++ flaw.text
      { code := .malformedStatement
        label := some label
        detail := "INVALID " ++ word.text ++ " STATEMENT: " ++ line ++ more }

/-- Checks the tokens after a line's label and reports a flaw. -/
def diagnose (label : Label) (line : String) (tokens : List Token) : Except Diagnostic Unit :=
  (check tokens).mapError fun (word, flaw) => report label line word flaw

end Shape

end Plotline

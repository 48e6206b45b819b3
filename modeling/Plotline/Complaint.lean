/-
Module: Plotline.Complaint
Layer: Language
Purpose: What the reader of tokens objects to. Apart from the two complaints about drawing regions all are
  syntax errors, and the wording of each is fixed here.
Main exports: Complaint, Complaint.diagnostic, Read, Reader
-/
import Plotline.Diagnostic
import Plotline.Token

namespace Plotline

/-- Why a list of tokens is not read. -/
inductive Complaint where
  | expectedStatement (found : Option Token)
  | expectedExpression (found : Option Token)
  | expectedEndOrSeparator
  | expectedSubscript
  | expectedName
  | expectedLabel
  | expectedComparison
  | expectedColor
  | expectedThen
  | expectedPhase
  | expectedLength
  | expectedEqual
  | expectedOpenParen
  | expectedCloseParen
  | expectedCloseBracket
  | expectedComma
  | malformedNumber (text : String)
  | drawingAlreadyStarted
  | noDrawingStarted
  deriving DecidableEq, Repr

namespace Complaint

/-- A token as a complaint quotes it. -/
def describe : Option Token → String
  | none | some .endOfLine => "END OF LINE"
  | some token => "'" ++ token.text ++ "'"

/-- The cause under which a complaint is reported. -/
def code : Complaint → Diagnostic.Code
  | drawingAlreadyStarted => .drawingAlreadyStarted
  | noDrawingStarted => .noDrawingStarted
  | _ => .syntaxError

/-- The detail a complaint is reported with. -/
def detail : Complaint → String
  | expectedStatement found => "EXPECTED STATEMENT, FOUND " ++ describe found
  | expectedExpression found => "EXPECTED EXPRESSION, FOUND " ++ describe found
  | expectedEndOrSeparator => "EXPECTED END OR SEPARATOR"
  | expectedSubscript => "EXPECTED SUBSCRIPT"
  | expectedName => "EXPECTED IDENTIFIER"
  | expectedLabel => "EXPECTED LINE LABEL"
  | expectedComparison => "EXPECTED =, < OR >"
  | expectedColor => "EXPECTED COLOR"
  | expectedThen => "EXPECTED THEN"
  | expectedPhase => "EXPECTED START OR FINISH"
  | expectedLength => "EXPECTED ARRAY LENGTH"
  | expectedEqual => "EXPECTED ="
  | expectedOpenParen => "EXPECTED LEFT PARENTHESIS"
  | expectedCloseParen => "EXPECTED RIGHT PARENTHESIS"
  | expectedCloseBracket => "EXPECTED RIGHT BRACKET"
  | expectedComma => "EXPECTED COMMA"
  | malformedNumber text => "MALFORMED NUMBER " ++ text
  | drawingAlreadyStarted | noDrawingStarted => ""

/-- The report on a complaint, without a label. -/
def diagnostic (c : Complaint) : Diagnostic :=
  { code := c.code, detail := c.detail }

end Complaint

/-- The outcome of reading tokens. -/
abbrev Read := Except Complaint

/-- Reads the front of a token list and gives what was read with the tokens left over. -/
abbrev Reader (α : Type) := List Token → Read (α × List Token)

end Plotline

/-
Module: Plotline.Line
Layer: Language
Purpose: One source line as tokens. The line is folded to upper case and trimmed, its first field is the
  label, and the rest is cut into tokens, has its signs expanded and its shape checked.
Main exports: Line, Line.tokenize, Line.ofText, Line.text
-/
import Plotline.Token.Scanner
import Plotline.Token.Shape
import Plotline.Token.Sign

namespace Plotline

/-- A source line that has been cut into tokens: the label first and the end of the line last. -/
structure Line where
  label : Label
  tokens : List Token
  deriving DecidableEq, Repr

namespace Line

/-- A character of the first field of a line. -/
def isFieldChar (c : Char) : Bool :=
  !Text.isSpace c

/-- Every reading of a line works on this form of it, and reports quote it. -/
def normalize (s : String) : List Char :=
  Text.trim (Text.upper s.toList)

/-- The tokens of a line as written, before its signs are expanded. -/
def scan (line : List Char) : Except Diagnostic (Label × List Token) :=
  let field := line.takeWhile isFieldChar
  let quoted := String.ofList line
  if Label.isField field then
    let label := String.ofList field
    match Token.scan (line.dropWhile isFieldChar) with
    | .ok body => .ok (label, .label label :: body ++ [.endOfLine])
    | .error c =>
        .error
          { code := .illegalCharacter
            label := some label
            detail := "'" ++ c.toString ++ "' IN " ++ quoted }
  else .error { code := .missingLabel, detail := quoted }

/-- Cuts a source line into tokens. -/
def tokenize (s : String) : Except Diagnostic (List Token) := do
  let line := normalize s
  let (label, written) ← scan line
  let tokens := Token.expandSigns written
  Shape.diagnose label (String.ofList line) tokens.tail
  pure tokens

/-- Reads a source line. -/
def ofText (s : String) : Except Diagnostic Line := do
  match ← tokenize s with
  | .label label :: rest => pure ⟨label, .label label :: rest⟩
  | _ => throw { code := .internalError, detail := "LINE WITHOUT LABEL" }

/-- The line written out again: the token texts with single spaces between them. -/
def text (line : Line) : String :=
  " ".intercalate ((line.tokens.filter (· != .endOfLine)).map Token.text)

end Line

end Plotline

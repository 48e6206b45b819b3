/-
Module: Plotline.Diagnostic
Layer: Language
Purpose: What is reported when a line cannot be read or a statement cannot be carried out. A diagnostic has
  a cause, the label of the line it belongs to when that is known, and a detail. The number of the cause
  decides its kind: a line that cannot be read is skipped, while a failing statement ends the run.
Main exports: Diagnostic, Diagnostic.Code, Diagnostic.Kind, Diagnostic.inLabel, Diagnostic.message
-/
import Plotline.Label

namespace Plotline

namespace Diagnostic

/-- The stage at which something went wrong. -/
inductive Kind where
  | lexical
  | parse
  | runtime
  deriving DecidableEq, Repr

/-- The causes. -/
inductive Code where
  | illegalCharacter
  | missingLabel
  | malformedStatement
  | syntaxError
  | drawingAlreadyStarted
  | noDrawingStarted
  | undefinedVariable
  | typeMismatch
  | subscriptOutOfRange
  | badSubscript
  | undefinedLine
  | unsupportedFunction
  | illegalFunctionCall
  | redimensionedArray
  | cantCreateFile
  | interrupted
  | outOfMemory
  | internalError
  deriving DecidableEq, Repr

namespace Code

/-- The number of a cause. -/
def number : Code → Nat
  | illegalCharacter => 1
  | missingLabel => 2
  | malformedStatement => 3
  | syntaxError => 10
  | drawingAlreadyStarted => 11
  | noDrawingStarted => 12
  | undefinedVariable => 20
  | typeMismatch => 21
  | subscriptOutOfRange => 22
  | badSubscript => 23
  | undefinedLine => 24
  | unsupportedFunction => 25
  | illegalFunctionCall => 26
  | redimensionedArray => 27
  | cantCreateFile => 28
  | interrupted => 29
  | outOfMemory => 30
  | internalError => 51

/-- The words with which a cause is reported. -/
def title : Code → String
  | illegalCharacter => "ILLEGAL CHARACTER"
  | missingLabel => "MISSING LINE LABEL"
  | malformedStatement => "MALFORMED STATEMENT"
  | syntaxError => "SYNTAX ERROR"
  | drawingAlreadyStarted => "DRAWING ALREADY STARTED"
  | noDrawingStarted => "NO DRAWING STARTED"
  | undefinedVariable => "UNDEFINED VARIABLE"
  | typeMismatch => "TYPE MISMATCH"
  | subscriptOutOfRange => "SUBSCRIPT OUT OF RANGE"
  | badSubscript => "BAD SUBSCRIPT"
  | undefinedLine => "UNDEFINED LINE"
  | unsupportedFunction => "UNSUPPORTED FUNCTION"
  | illegalFunctionCall => "ILLEGAL FUNCTION CALL"
  | redimensionedArray => "REDIMENSIONED ARRAY"
  | cantCreateFile => "CAN'T CREATE FILE"
  | interrupted => "BREAK"
  | outOfMemory => "OUT OF MEMORY"
  | internalError => "INTERNAL ERROR"

/-- The stage a cause belongs to, read off its number. -/
def kind (c : Code) : Kind :=
  if c.number < 10 then .lexical else if c.number < 20 then .parse else .runtime

end Code

end Diagnostic

/-- A report: its cause, the line it belongs to when known, and a detail, which may be empty. -/
structure Diagnostic where
  code : Diagnostic.Code
  label : Option Label := none
  detail : String := ""
  deriving DecidableEq, Repr

namespace Diagnostic

/-- The stage at which the diagnostic arose. -/
def kind (d : Diagnostic) : Kind :=
  d.code.kind

/-- Reading can go on after this diagnostic: it concerns one line and not a run. -/
def isRecoverable (d : Diagnostic) : Bool :=
  d.kind != .runtime

/-- Attaches a label unless there is one already, so the innermost label wins. -/
def inLabel (d : Diagnostic) (label : Label) : Diagnostic :=
  { d with label := d.label.or (some label) }

/-- After labelling there is a label. -/
theorem label_inLabel (d : Diagnostic) (label : Label) :
    (d.inLabel label).label = some (d.label.getD label) := by
  cases h : d.label <;> simp [inLabel, h]

/-- The report as one line of text. -/
def message (d : Diagnostic) : String :=
  let place :=
    match d.label with
    | some label => " IN " ++ label
    | none => ""
  let detail := if d.detail.isEmpty then "" else "; " ++ d.detail
  d.code.title ++ place ++ detail

end Diagnostic

end Plotline

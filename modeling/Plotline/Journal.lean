/-
Module: Plotline.Journal
Layer: Machine
Purpose: What is noted for the journal while a source text is read and a program runs. Notes are derived
  from the work and do not take part in it.
Main exports: Note, Note.text
-/
import Plotline.Line
import Plotline.Statement

namespace Plotline

/-- A journal entry. -/
inductive Note where
  /-- A line was cut into tokens. -/
  | tokens (line : Line)
  /-- A statement was read off the line with the given label. -/
  | statement (label : Label) (statement : Statement)
  /-- The statement with the given label jumped to an address. -/
  | jump (label : Label) (address : Nat)
  /-- The statement with the given label finished a drawing. -/
  | drawing (label : Label) (figures : Nat)

namespace Note

/-- How much detail a journal has to keep in order to hold the note. -/
def level : Note → String
  | jump .. => "TRACE"
  | _ => "DEBUG"

/-- The label of the line a note is about. -/
def label : Note → Label
  | tokens line => line.label
  | statement l _ | jump l _ | drawing l _ => l

/-- What a note says about its line. -/
def remark : Note → String
  | tokens line => "TOKENS: " ++ line.text
  | statement _ s => "AST: " ++ s.text
  | jump _ address => "JUMP TO " ++ String.ofList (Nat.toDigits 10 address)
  | drawing _ figures => "DRAWING OF " ++ String.ofList (Nat.toDigits 10 figures) ++ " ELEMENTS"

/-- The text of a note. -/
def text (note : Note) : String :=
  note.level ++ " LINE " ++ note.label ++ " " ++ note.remark

end Note

end Plotline

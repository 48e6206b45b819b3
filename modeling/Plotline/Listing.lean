/-
Module: Plotline.Listing
Layer: Machine
Purpose: Gathering a source text into statements, line by line. A line that cannot be read is reported and
  leaves no other trace; the drawing region runs on from each line that is read to the next. A drawing
  still open at the end is reported under the line that last changed the region.
Main exports: Reading, Reading.ofLine, Listing, Listing.loadLine, Listing.load, Listing.loadNotes
-/
import Plotline.Journal
import Plotline.Statement.Parser
import Plotline.Text.Lines

namespace Plotline

/-- What became of one source line. -/
inductive Reading where
  /-- A blank line or a remark. -/
  | skipped
  /-- The line could not be cut into tokens. -/
  | illegible (problem : Diagnostic)
  /-- The tokens could not be read as statements. -/
  | rejected (line : Line) (problem : Diagnostic)
  /-- The line was read; the region is the one after it. -/
  | accepted (line : Line) (statements : List Statement) (region : Region)

namespace Reading

/-- A line that holds no statement: blank, or a remark that starts with an asterisk. -/
def isIdle (text : String) : Bool :=
  match Text.trimStart text.toList with
  | [] => true
  | c :: _ => c == '*'

/-- Reads one source line in a region. -/
def ofLine (region : Region) (text : String) : Reading :=
  if isIdle text then .skipped
  else
    match Line.ofText text with
    | .error problem => .illegible problem
    | .ok line =>
        match Statement.parseAll region line.tokens with
        | .error problem => .rejected line problem
        | .ok (statements, last) => .accepted line statements last

/-- What reading the line adds to the journal. -/
def notes : Reading → List Note
  | skipped | illegible _ => []
  | rejected line _ => [.tokens line]
  | accepted line statements _ => .tokens line :: statements.map (.statement line.label)

end Reading

/-- The lines read so far: their statements, the reports on the others, the region after them and the label
    of the line that last changed it. -/
structure Listing where
  statements : List Statement := []
  errors : List Diagnostic := []
  region : Region := .closed
  regionLabel : Option Label := none
  deriving Inhabited

namespace Listing

/-- Adds one source line. A line that cannot be read gives its report. -/
def loadLine (l : Listing) (text : String) : Except Diagnostic Listing :=
  match Reading.ofLine l.region text with
  | .skipped => .ok l
  | .illegible problem | .rejected _ problem => .error problem
  | .accepted line statements last =>
      .ok
        { l with
          statements := l.statements ++ statements
          region := last
          regionLabel := if last = l.region then l.regionLabel else some line.label }

/-- Adds one source line, or else its report. -/
def takeLine (l : Listing) (text : String) : Listing :=
  match l.loadLine text with
  | .ok next => next
  | .error problem => { l with errors := l.errors ++ [problem] }

/-- The report on a drawing that is still open. -/
def unclosed? (l : Listing) : Option Diagnostic :=
  match l.region with
  | .closed => none
  | .opened =>
      some { code := .syntaxError, label := l.regionLabel, detail := "DRAW START WITHOUT DRAW FINISH" }

/-- Reads the lines of a source text, one after the other. -/
def loadLines (lines : List String) : Listing :=
  lines.foldl takeLine {}

/-- Ends a listing: a drawing still open is reported last. -/
def close (l : Listing) : Listing :=
  { l with errors := l.errors ++ l.unclosed?.toList }

/-- Reads a source text. -/
def load (source : String) : Listing :=
  (loadLines (Text.lines source)).close

/-- What reading the lines adds to the journal. -/
def linesNotes (l : Listing) : List String → List Note
  | [] => []
  | text :: rest => (Reading.ofLine l.region text).notes ++ linesNotes (l.takeLine text) rest

/-- What reading a source text adds to the journal. -/
def loadNotes (source : String) : List Note :=
  linesNotes {} (Text.lines source)

end Listing

end Plotline

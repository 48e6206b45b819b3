/-
Module: Plotline.Session
Layer: Session
Purpose: A program run from the command line, up to the input and output it asks for. A session turns each
  event of its machine into a request; whoever serves the requests tells the session how they went.
Main exports: Invocation, Invocation.ofArguments?, Request, Session, Session.next, Session.reportText
-/
import Plotline.Machine
import Plotline.Path
import Plotline.Timestamp

namespace Plotline

/-- What the command line asks for. -/
structure Invocation where
  script : String
  /-- Where drawings are kept. -/
  outDir : String := "."
  /-- Only read the script and report on it. -/
  checkOnly : Bool := false
  deriving DecidableEq, Repr

namespace Invocation

/-- Reads the arguments of the command line after some have been read. -/
def addArguments (script : Option String) (outDir : String) (checkOnly : Bool) :
    List String → Option Invocation
  | [] => script.map fun script => { script, outDir, checkOnly }
  | "--check" :: rest => addArguments script outDir true rest
  | "-o" :: directory :: rest => addArguments script directory checkOnly rest
  | "--out-dir" :: directory :: rest => addArguments script directory checkOnly rest
  | argument :: rest =>
      if argument.startsWith "-" || script.isSome then none
      else addArguments (some argument) outDir checkOnly rest

/-- Reads the arguments of the command line; nothing if they make no sense. -/
def ofArguments? (arguments : List String) : Option Invocation :=
  addArguments none "." false arguments

/-- The stem that names the drawings of a script. -/
def stem (i : Invocation) : String :=
  (Path.stem? i.script).getD "basic"

/-- Where a drawing finished at a moment is kept. -/
def drawingPath (i : Invocation) (time : Timestamp) : String :=
  Path.join i.outDir (time.drawingName i.stem)

end Invocation

/-- What a session asks for. -/
inductive Request where
  /-- Nothing: the session only has to go on. -/
  | proceed
  | write (text : String)
  /-- Show a prompt and read an answer. -/
  | ask (prompt : String)
  | report (problems : List Diagnostic)
  | save (document : String)
  | finish
  deriving DecidableEq, Repr

/-- A program under way, and whether anything has been reported. -/
structure Session where
  machine : Machine
  hadErrors : Bool := false

namespace Session

/-- The statements carried out between two looks at the outside. -/
def budget : Nat := 5000

/-- What is written when a program ends itself. -/
def endText : String := "END\n"

/-- A report in bold, on a line of its own. -/
def reportLine (problem : Diagnostic) : String :=
  "\x1b[1m?" ++ problem.message ++ "\x1b[0m\n"

/-- Reports, each on a line of its own. -/
def reportText (problems : List Diagnostic) : String :=
  String.join (problems.map reportLine)

/-- The session of a listing that is about to run. -/
def start (generator : Generator) (listing : Listing) : Session :=
  { machine := (Machine.new generator).load listing }

/-- What the session asks for next. -/
def next (s : Session) : Request × Session :=
  match s.machine.execute budget with
  | (.stopped, machine) => (.finish, { s with machine })
  | (.running, machine) => (.proceed, { s with machine })
  | (.print text, machine) => (.write text, { s with machine })
  | (.input prompt, machine) => (.ask prompt, { s with machine })
  | (.errors problems, machine) => (.report problems, { machine, hadErrors := true })
  | (.drawing document, machine) => (.save document, { s with machine })
  | (.ended, machine) => (.write endText, { s with machine })

/-- An answer was read. -/
def answered (s : Session) (text : String) : Session :=
  { s with machine := (s.machine.enter text).2 }

/-- There was no answer left to read. -/
def endOfInput (s : Session) : Session :=
  { s with machine := s.machine.fail { code := .interrupted, detail := "END OF INPUT" } }

/-- A drawing could not be kept. -/
def saveFailed (s : Session) (path problem : String) : Session :=
  { s with machine := s.machine.fail { code := .cantCreateFile, detail := path ++ ": " ++ problem } }

/-- The exit status of a session that has finished. -/
def status (s : Session) : Nat :=
  if s.hadErrors then 1 else 0

end Session

end Plotline

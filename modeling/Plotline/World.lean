/-
Module: Plotline.World
Layer: Session
Purpose: The outside of a session as a value: the files, the lines of standard input, what has been written
  to standard output and standard error, what the clock shows, and the drawings that were to be kept. An
  invocation run in a world gives an exit status and the world after it.
Main exports: World, Save, World.inputLines, World.serve, Invocation.run
-/
import Plotline.FileSystem
import Plotline.Session
import Plotline.Text.Utf8

namespace Plotline

/-- A drawing that was to be kept: where, its document, and the problem if it could not be. -/
structure Save where
  path : String
  document : String
  problem : Option String
  deriving DecidableEq, Repr

/-- What a program run from the command line can see and change. A line of input that cannot be read is given
    by the problem with it. The clock is looked at once for each drawing that is to be kept, and need not show
    the same moment twice. -/
structure World (σ : Type) where
  files : σ
  input : List (Except String String) := []
  output : String := ""
  errors : String := ""
  /-- What the clock shows when it is looked at, by the number of times before. -/
  clock : Nat → Timestamp
  /-- The drawings that were to be kept, in order. -/
  saves : List Save := []

namespace World

/-- Bytes cut into lines; each line keeps the line feed it ends with. -/
def splitBytes : List UInt8 → List (List UInt8)
  | [] => []
  | b :: rest =>
      if b == 10 then [b] :: splitBytes rest
      else
        match splitBytes rest with
        | [] => [[b]]
        | line :: more => (b :: line) :: more

/-- The problem with a line that is not UTF-8. -/
def invalidInputText : String := "stream did not contain valid UTF-8"

/-- The lines of standard input that holds the given bytes. -/
def inputLines (bytes : List UInt8) : List (Except String String) :=
  (splitBytes bytes).map fun line =>
    match Utf8.decodeStrict line with
    | some text => .ok text
    | none => .error invalidInputText

variable {σ : Type}

/-- Writes to standard output. -/
def print (w : World σ) (text : String) : World σ :=
  { w with output := w.output ++ text }

/-- Writes to standard error. -/
def complain (w : World σ) (text : String) : World σ :=
  { w with errors := w.errors ++ text }

/-- How a request was served: the session goes on, or the program exits with a status. -/
inductive Served (σ : Type) where
  | ongoing (session : Session) (world : World σ)
  | exited (status : Nat) (world : World σ)

/-- Reads an answer. -/
def readAnswer (w : World σ) (s : Session) : Served σ :=
  match w.input with
  | [] => .ongoing s.endOfInput w
  | .ok line :: rest => .ongoing (s.answered line) { w with input := rest }
  | .error problem :: rest => .exited 1 ({ w with input := rest }.complain (problem ++ "\n"))

variable [FileSystem σ]

/-- Keeps a drawing under the moment that the clock shows. -/
def saveDrawing (i : Invocation) (w : World σ) (s : Session) (document : String) : Served σ :=
  let path := i.drawingPath (w.clock w.saves.length)
  match FileSystem.save w.files path document.toUTF8.toList with
  | (.ok _, files) => .ongoing s { w with files, saves := w.saves ++ [⟨path, document, none⟩] }
  | (.error problem, files) =>
      .ongoing (s.saveFailed path problem)
        { w with files, saves := w.saves ++ [⟨path, document, some problem⟩] }

/-- Serves a request. -/
def serve (i : Invocation) (w : World σ) (s : Session) : Request → Served σ
  | .proceed => .ongoing s w
  | .write text => .ongoing s (w.print text)
  | .ask prompt => (w.print prompt).readAnswer s
  | .report problems => .ongoing s (w.complain (Session.reportText problems))
  | .save document => saveDrawing i w s document
  | .finish => .exited s.status w

end World

namespace Invocation

open World (Served)

variable {σ : Type} [FileSystem σ]

/-- Serves a session until it exits, for at most the given number of requests. -/
def serveAll (i : Invocation) : Nat → Session → World σ → Option (Nat × World σ)
  | 0, _, _ => none
  | turns + 1, s, w =>
      let (request, s) := s.next
      match w.serve i s request with
      | .ongoing s w => i.serveAll turns s w
      | .exited status w => some (status, w)

/-- What is written when the script cannot be read. -/
def unreadableText (i : Invocation) (problem : String) : String :=
  "?" ++ i.script ++ ": " ++ problem ++ "\n"

/-- Carries out an invocation: the exit status and the world after it, or nothing if the program has not
    exited after the given number of requests. -/
def run (i : Invocation) (generator : Generator) (turns : Nat) (w : World σ) : Option (Nat × World σ) :=
  match FileSystem.read w.files i.script with
  | .error problem => some (2, w.complain (i.unreadableText problem))
  | .ok bytes =>
      let listing := Listing.load (Utf8.decodeLenient bytes)
      if i.checkOnly then
        some (if listing.errors.isEmpty then 0 else 1, w.complain (Session.reportText listing.errors))
      else i.serveAll turns (.start generator listing) w

end Invocation

end Plotline

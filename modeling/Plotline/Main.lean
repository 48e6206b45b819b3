/-
Module: Plotline.Main
Layer: Command line
Purpose: The command line program. It serves the requests of a session with the real disk, streams and
  clock; what is asked for and said is decided elsewhere.
Main exports: main
-/
import Plotline.World
import Std.Time.Zoned

namespace Plotline

namespace CommandLine

/-- The current local time. -/
def now : IO Timestamp := do
  let t ← Std.Time.PlainDateTime.now
  pure
    { year := t.date.year.toInt
      month := t.date.month.val.toNat
      day := t.date.day.val.toNat
      hour := t.time.hour.val.toNat
      minute := t.time.minute.val.toNat
      second := t.time.second.val.toNat }

/-- A generator that differs from run to run. -/
def freshGenerator : IO Generator := do
  let bytes ← IO.getRandomBytes 8
  pure (Generator.seeded (bytes.toList.foldl (fun n b => n * 256 + b.toUInt64) 0))

/-- The text of a file system problem, with its number. -/
def problemText : IO.Error → String
  | .noFileOrDirectory _ code details | .inappropriateType _ code details
  | .permissionDenied _ code details | .resourceExhausted _ code details
  | .otherError code details => details ++ " (os error " ++ toString code ++ ")"
  | problem => toString problem

/-- The bytes of one line of standard input with its line feed; none at the end of the input. -/
partial def readLine (stdin : IO.FS.Stream) (line : ByteArray) : IO ByteArray := do
  let bytes ← stdin.read 1
  match bytes.toList with
  | [] => pure line
  | b :: _ => if b == 10 then pure (line.push b) else readLine stdin (line.push b)

/-- Reads an answer; nothing when the line is not UTF-8. -/
def readAnswer (s : Session) : IO (Option Session) := do
  let line ← readLine (← IO.getStdin) .empty
  if line.isEmpty then pure (some s.endOfInput)
  else pure ((Utf8.decodeStrict line.toList).map s.answered)

/-- Keeps a drawing. -/
def saveDrawing (i : Invocation) (s : Session) (document : String) : IO Session := do
  let path := i.drawingPath (← now)
  try
    IO.FS.writeFile path document
    pure s
  catch problem => pure (s.saveFailed path (problemText problem))

/-- Serves a session until it exits with a status. -/
partial def serveAll (i : Invocation) (s : Session) : IO Nat := do
  let stdout ← IO.getStdout
  let (request, s) := s.next
  match request with
  | .proceed => serveAll i s
  | .write text =>
      stdout.putStr text
      serveAll i s
  | .ask prompt =>
      stdout.putStr prompt
      stdout.flush
      match ← readAnswer s with
      | some s => serveAll i s
      | none =>
          IO.eprint (World.invalidInputText ++ "\n")
          pure 1
  | .report problems =>
      stdout.flush
      IO.eprint (Session.reportText problems)
      serveAll i s
  | .save document => serveAll i (← saveDrawing i s document)
  | .finish =>
      stdout.flush
      pure s.status

/-- The bytes of the script. -/
def readScript (i : Invocation) : IO ByteArray := do
  let script ← IO.FS.Handle.mk i.script .read
  script.readBinToEnd

/-- Carries out an invocation. -/
def run (i : Invocation) : IO Nat := do
  match ← (readScript i).toBaseIO with
  | .error problem =>
      IO.eprint (i.unreadableText (problemText problem))
      pure 2
  | .ok bytes =>
      let listing := Listing.load (Utf8.decodeLenient bytes.toList)
      if i.checkOnly then
        IO.eprint (Session.reportText listing.errors)
        pure (if listing.errors.isEmpty then 0 else 1)
      else serveAll i (.start (← freshGenerator) listing)

/-- What is written when the arguments make no sense. -/
def usage : String :=
  "usage: basic [-o DIRECTORY] [--check] SCRIPT\n"

end CommandLine

end Plotline

/-- Runs the script named on the command line. -/
def main (arguments : List String) : IO UInt32 := do
  match Plotline.Invocation.ofArguments? arguments with
  | some invocation => pure (← Plotline.CommandLine.run invocation).toUInt32
  | none =>
      IO.eprint Plotline.CommandLine.usage
      pure 2

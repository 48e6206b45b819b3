/-
Module: Plotline.Disk
Layer: Session
Purpose: A small file system held in a value: the directories and files below a working directory. It serves
  to try sessions out. Reading and writing fail the way a file system fails, with its texts.
Main exports: Disk, Disk.Problem, Disk.read, Disk.write, Disk.filesIn
-/
import Plotline.FileSystem
import Plotline.Path

namespace Plotline

/-- What a directory holds under a name. -/
inductive Disk.Node where
  | directory
  | file (bytes : List UInt8)
  deriving DecidableEq, Repr

/-- The directories and files below the working directory, by the parts of their paths. The working
    directory itself is always there. -/
structure Disk where
  directories : List (List String) := []
  files : List (List String × List UInt8) := []
  deriving Repr, Inhabited

namespace Disk

/-- Why a file cannot be read or written. -/
inductive Problem where
  | notFound
  | notDirectory
  | isDirectory
  deriving DecidableEq, Repr

/-- The text of a problem, with its number. -/
def Problem.text : Problem → String
  | notFound => "No such file or directory (os error 2)"
  | notDirectory => "Not a directory (os error 20)"
  | isDirectory => "Is a directory (os error 21)"

/-- What stands at a place. -/
def node? (d : Disk) (place : List String) : Option Node :=
  if place.isEmpty || d.directories.contains place then some .directory
  else (d.files.lookup place).map .file

/-- Goes down from a directory through the named directories. -/
def descend (d : Disk) (place : List String) : List String → Except Problem (List String)
  | [] => .ok place
  | ".." :: rest => d.descend place.dropLast rest
  | name :: rest =>
      match d.node? (place ++ [name]) with
      | some .directory => d.descend (place ++ [name]) rest
      | some (.file _) => .error .notDirectory
      | none => .error .notFound

/-- The place a path leads to; all but its last part has to exist. Only what is below the working directory
    can be reached. -/
def resolve (d : Disk) (path : String) : Except Problem (List String) :=
  if path.isEmpty || Path.isAbsolute path then .error .notFound
  else
    let components := Path.components path
    match components.getLast? with
    | none => .ok []
    | some ".." => d.descend [] components
    | some name => (d.descend [] components.dropLast).map (· ++ [name])

/-- The bytes of a file. -/
def read (d : Disk) (path : String) : Except Problem (List UInt8) := do
  match d.node? (← d.resolve path) with
  | some (.file bytes) => if Path.isDirectoryLike path then .error .notDirectory else .ok bytes
  | some .directory => .error .isDirectory
  | none => .error .notFound

/-- Puts a file at a place, instead of one that stands there already. -/
def put (d : Disk) (place : List String) (bytes : List UInt8) : Disk :=
  { d with files := (place, bytes) :: d.files.filter (·.1 != place) }

/-- The place at which a file can be made. -/
def target (d : Disk) (path : String) : Except Problem (List String) := do
  let place ← d.resolve path
  match d.node? place with
  | some .directory => .error .isDirectory
  | some (.file _) => if Path.isDirectoryLike path then .error .notDirectory else .ok place
  | none => if Path.isDirectoryLike path then .error .isDirectory else .ok place

/-- Writes a file. -/
def write (d : Disk) (path : String) (bytes : List UInt8) : Except Problem Disk :=
  (d.target path).map (d.put · bytes)

/-- Makes a directory, with the directories it lies in. -/
def makeDirectory (d : Disk) (path : String) : Disk :=
  let components := Path.components path
  let made := (List.range components.length).map fun n => components.take (n + 1)
  { d with directories := d.directories ++ made }

/-- The files that stand directly in a directory. -/
def filesIn (d : Disk) (place : List String) : List (List String × List UInt8) :=
  d.files.filter (·.1.dropLast == place)

instance : FileSystem Disk where
  Handle := List String
  read d path := (d.read path).mapError Problem.text
  create d path :=
    match d.target path with
    | .ok place => (.ok place, d.put place [])
    | .error problem => (.error problem.text, d)
  write d place bytes := (.ok (), d.put place bytes)

end Disk

end Plotline

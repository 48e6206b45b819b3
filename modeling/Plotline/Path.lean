/-
Module: Plotline.Path
Layer: Session
Purpose: Paths as text, with slashes between their parts: joining them and taking a file's stem.
Main exports: Path.components, Path.stem?, Path.join
-/

namespace Plotline

namespace Path

/-- The parts of a path as written, given the characters of its first part so far in reverse. -/
def partsFrom : List Char → List Char → List String
  | current, [] => [String.ofList current.reverse]
  | current, '/' :: rest => String.ofList current.reverse :: partsFrom [] rest
  | current, c :: rest => partsFrom (c :: current) rest

/-- The parts of a path as written; there are empty ones where slashes stand together or at an end. -/
def parts (path : String) : List String :=
  partsFrom [] path.toList

/-- A part that stays where it is. -/
def isIdle (part : String) : Bool :=
  part.isEmpty || part == "."

/-- The parts of a path that lead somewhere. -/
def components (path : String) : List String :=
  (parts path).filter (!isIdle ·)

/-- The path starts at the root of the file system. -/
def isAbsolute (path : String) : Bool :=
  path.toList.head? == some '/'

/-- The path is written as that of a directory: it ends with a slash, or with a part that stays there. -/
def isDirectoryLike (path : String) : Bool :=
  (parts path).getLast?.any isIdle

/-- A path inside a directory. -/
def join (directory name : String) : String :=
  match directory.toList.getLast? with
  | none => name
  | some c => if c == '/' then directory ++ name else directory ++ "/" ++ name

/-- A file name without what follows its last dot. A dot at the very front starts no extension. -/
def withoutExtension (name : List Char) : List Char :=
  let reversed := name.reverse
  match reversed.dropWhile (· != '.') with
  | _ :: stem => if stem.isEmpty then name else stem.reverse
  | [] => name

/-- The stem of the file a path leads to. A path that leads up has none. -/
def stem? (path : String) : Option String :=
  match (components path).getLast? with
  | none => none
  | some name => if name == ".." then none else some (String.ofList (withoutExtension name.toList))

end Path

end Plotline

/-
Module: Plotline.FileSystem
Layer: Session
Purpose: What a session asks of the files around it. The files are a state of any type together with what
  reading, making and writing come to. Nothing is assumed of the answers: any path may lead anywhere, any
  request may fail at any time and with any text, and one that fails may leave traces.
Main exports: FileSystem, FileSystem.save
-/

namespace Plotline

/-- Files, by what becomes of requests. A problem is given by its text. -/
class FileSystem (σ : Type) where
  /-- A file that was made and can be written to. -/
  Handle : Type
  /-- The bytes of a file. Reading changes nothing. -/
  read : σ → String → Except String (List UInt8)
  /-- Makes an empty file, in place of one that is there already. -/
  create : σ → String → Except String Handle × σ
  /-- Writes all bytes to a file that was made. -/
  write : σ → Handle → List UInt8 → Except String Unit × σ

namespace FileSystem

/-- Keeps bytes in a new file: makes it, and then writes them. Either may fail; a file that cannot be written
    stays as it is then. -/
def save {σ : Type} [FileSystem σ] (files : σ) (path : String) (bytes : List UInt8) :
    Except String Unit × σ :=
  match create files path with
  | (.ok handle, made) => write made handle bytes
  | (.error problem, left) => (.error problem, left)

end FileSystem

end Plotline

/-
Module: Plotline.Program
Layer: Machine
Purpose: Statements in source order, and an index of their labels. A label that several statements carry
  stands for the first of them.
Main exports: Program, Program.ofStatements, Program.statement?, Program.addressOf
-/
import Plotline.Diagnostic
import Plotline.Statement
import Std.Data.HashMap

namespace Plotline

/-- Statements by their address, and where each label first appears. -/
structure Program where
  statements : Array Statement := #[]
  index : Std.HashMap Label Nat := {}
  deriving Inhabited

namespace Program

/-- No statements. -/
def empty : Program := {}

/-- The address at which each label of some statements first appears. -/
def indexOf (statements : List Statement) : Std.HashMap Label Nat :=
  statements.zipIdx.foldl (fun index (s, address) => index.insertIfNew s.label address) {}

/-- The program with the given statements. -/
def ofStatements (statements : List Statement) : Program :=
  { statements := statements.toArray, index := indexOf statements }

/-- The number of statements. -/
def size (p : Program) : Nat :=
  p.statements.size

/-- The statement at an address. -/
def statement? (p : Program) (address : Nat) : Option Statement :=
  p.statements[address]?

/-- The address that a jump to a label goes to. -/
def addressOf (p : Program) (label : Label) : Except Diagnostic Nat :=
  match p.index[label]? with
  | some address => .ok address
  | none => .error { code := .undefinedLine, detail := label }

end Program

end Plotline

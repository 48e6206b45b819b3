/-
Module: Plotline.Proofs.LabelIndex
Layer: Proofs
Purpose: The index of labels agrees with a scan. A label is looked up in an index that was built once; what
  is found is the place of the first statement with that label, and nothing is found exactly if no statement
  has it. So a jump never leaves the program.
Main exports: Program.index_ofStatements, Program.addressOf_ofStatements, Program.addressOf_lt_size
-/
import Plotline.Program

namespace Plotline

namespace Program

theorem statement?_ofStatements (statements : List Statement) (address : Nat) :
    (ofStatements statements).statement? address = statements[address]? := by
  simp [statement?, ofStatements]

theorem size_ofStatements (statements : List Statement) :
    (ofStatements statements).size = statements.length := by
  simp [size, ofStatements]

/-- Whether a statement carries a label. -/
def isAt (label : Label) (s : Statement) : Bool :=
  s.label == label

/-- Entering statements that start at address `k` adds, to what an index had, the place of the first of them
    with a label. An entry that was there before stays. -/
theorem getElem?_foldl_insertIfNew (label : Label) (statements : List Statement) (k : Nat)
    (index : Std.HashMap Label Nat) :
    ((statements.zipIdx k).foldl
        (fun index (s, address) => index.insertIfNew s.label address) index)[label]? =
      index[label]?.or ((statements.findIdx? (isAt label)).map (· + k)) := by
  induction statements generalizing k index with
  | nil => simp
  | cons s rest ih =>
      rw [List.zipIdx_cons, List.foldl_cons, ih, Std.HashMap.getElem?_insertIfNew, List.findIdx?_cons]
      by_cases here : s.label = label
      · subst here
        cases known : index[s.label]? with
        | some address =>
            have mem : s.label ∈ index := by
              rw [Std.HashMap.mem_iff_isSome_getElem?, known]
              rfl
            simp [mem]
        | none =>
            have free : s.label ∉ index := by
              rw [Std.HashMap.mem_iff_isSome_getElem?, known]
              simp
            simp [free, isAt]
      · have elsewhere : isAt label s = false := by simpa [isAt] using here
        simp only [elsewhere, Bool.false_eq_true, beq_iff_eq, here, false_and, if_false,
          Option.map_map]
        congr 2
        funext i
        simp only [Function.comp]
        omega

/-- What the index of a program says of a label is where a scan finds it first. -/
theorem index_ofStatements (statements : List Statement) (label : Label) :
    (ofStatements statements).index[label]? = statements.findIdx? (isAt label) := by
  have scanned := getElem?_foldl_insertIfNew label statements 0 {}
  simpa [ofStatements, indexOf] using scanned

/-- A jump to a label goes to the first statement that carries it. -/
theorem addressOf_ofStatements {statements : List Statement} {label : Label} {address : Nat} :
    (ofStatements statements).addressOf label = .ok address ↔
      statements.findIdx? (isAt label) = some address := by
  unfold addressOf
  rw [index_ofStatements]
  cases statements.findIdx? (isAt label) <;> simp

/-- No jump leaves the program. -/
theorem addressOf_lt_size {statements : List Statement} {label : Label} {address : Nat}
    (found : (ofStatements statements).addressOf label = .ok address) :
    address < (ofStatements statements).size := by
  have first := addressOf_ofStatements.1 found
  rw [size_ofStatements]
  exact (List.findIdx?_eq_some_iff_findIdx_eq.1 first).1

end Program

end Plotline

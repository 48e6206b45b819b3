/-
Module: Plotline.Memory
Layer: Machine
Purpose: The variables of a running program. A scalar is stored as one number. A name with a length is an
  array; it must be subscripted, from one to that length, and other names must not be. Writing is done in
  two steps: the slot is located, which may fail and changes nothing, and then the number is put there.
Main exports: Memory, Memory.fetch, Memory.store, Memory.fetchElement, Memory.storeElement,
  Memory.dimension, Memory.read, Memory.locate, Memory.put
-/
import Plotline.Diagnostic
import Plotline.Expression
import Std.Data.HashMap

namespace Plotline

/-- The variables: the numbers stored under each name, and the lengths of the names that are arrays. -/
structure Memory where
  cells : Std.HashMap String (Array Float) := {}
  lengths : Std.HashMap String Nat := {}
  deriving Inhabited

namespace Memory

/-- The greatest length an array may have. -/
def lengthLimit : Nat := 16777216

/-- No variables. -/
def empty : Memory := {}

/-- The name is an array. -/
def isArray (m : Memory) (name : String) : Bool :=
  m.lengths.contains name

/-- The name is in use, as a scalar or as an array. -/
def isUsed (m : Memory) (name : String) : Bool :=
  m.cells.contains name

/-- The report on a scalar use of an array. -/
def arrayMismatch (name : String) : Diagnostic :=
  { code := .typeMismatch, detail := name ++ " IS AN ARRAY" }

/-- The text of an array element, with the value of its subscript. -/
def elementText (name : String) (value : Float) : String :=
  name ++ "[" ++ Number.text value ++ "]"

/-- The number in a scalar. -/
def fetch (m : Memory) (name : String) : Except Diagnostic Float :=
  if m.isArray name then .error (arrayMismatch name)
  else
    match m.cells[name]? >>= (·[0]?) with
    | some x => .ok x
    | none => .error { code := .undefinedVariable, detail := name }

/-- The length of an array. -/
def lengthOf (m : Memory) (name : String) : Except Diagnostic Nat :=
  match m.lengths[name]? with
  | some length => .ok length
  | none =>
      if m.isUsed name then .error { code := .typeMismatch, detail := name ++ " IS NOT AN ARRAY" }
      else .error { code := .undefinedVariable, detail := name }

/-- The value of a subscript. A variable used as a subscript is a scalar. -/
def subscriptValue (m : Memory) : Subscript → Except Diagnostic Float
  | .literal x => .ok x
  | .name name =>
      if m.isArray name then
        .error { code := .typeMismatch, detail := "SUBSCRIPT " ++ name ++ " IS AN ARRAY" }
      else m.fetch name

/-- The storage offset of a subscript: it counts from one, is whole and does not exceed the length. -/
def offsetOf (name : String) (length : Nat) (value : Float) : Except Diagnostic Nat :=
  match Number.integer? value with
  | none => .error { code := .badSubscript, detail := elementText name value }
  | some k =>
      if 1 ≤ k ∧ k ≤ length then .ok (k - 1).toNat
      else .error { code := .subscriptOutOfRange, detail := elementText name value }

/-- The storage offset of an array element. -/
def offset (m : Memory) (name : String) (subscript : Subscript) : Except Diagnostic Nat := do
  let length ← m.lengthOf name
  let value ← m.subscriptValue subscript
  offsetOf name length value

/-- The number stored at an offset. Every offset of an array is within its storage, so the report is never
    made. -/
def cell (m : Memory) (name : String) (offset : Nat) : Except Diagnostic Float :=
  match m.cells[name]? >>= (·[offset]?) with
  | some x => .ok x
  | none => .error { code := .internalError, detail := "ARRAY STORAGE" }

/-- The number in an array element. -/
def fetchElement (m : Memory) (name : String) (subscript : Subscript) : Except Diagnostic Float := do
  let offset ← m.offset name subscript
  m.cell name offset

/-- The number in a variable, as expressions read it. A subscript after a name that is no array is not
    looked at. -/
def read (m : Memory) : Variable → Except Diagnostic Float
  | .scalar name => m.fetch name
  | .element name subscript =>
      if m.isArray name then m.fetchElement name subscript else m.fetch name

/-- A place where a number can be put. -/
inductive Slot where
  | scalar (name : String)
  | element (name : String) (offset : Nat)
  deriving DecidableEq, Repr

/-- Finds the slot of a variable that is to be written. -/
def locate (m : Memory) : Variable → Except Diagnostic Slot
  | .scalar name => if m.isArray name then .error (arrayMismatch name) else .ok (.scalar name)
  | .element name subscript => do
      let offset ← m.offset name subscript
      discard (m.cell name offset)
      .ok (.element name offset)

/-- Puts a number into a slot. -/
def put (m : Memory) (slot : Slot) (x : Float) : Memory :=
  match slot with
  | .scalar name => { m with cells := m.cells.insert name #[x] }
  | .element name offset => { m with cells := m.cells.modify name (·.setIfInBounds offset x) }

/-- Writes a variable. -/
def assign (m : Memory) (place : Variable) (x : Float) : Except Diagnostic Memory :=
  (m.locate place).map (m.put · x)

/-- Writes a scalar. -/
def store (m : Memory) (name : String) (x : Float) : Except Diagnostic Memory :=
  m.assign (.scalar name) x

/-- Writes an array element. -/
def storeElement (m : Memory) (name : String) (subscript : Subscript) (x : Float) :
    Except Diagnostic Memory :=
  m.assign (.element name subscript) x

/-- Whether an array can be made: its name is free and its length within the limit. Storage for an array
    within the limit is always found here; where a host has none left, it gives the same report. -/
def canDimension (m : Memory) (name : String) (length : Nat) : Except Diagnostic Unit :=
  if m.isUsed name then .error { code := .redimensionedArray, detail := name }
  else if lengthLimit < length then
    .error
      { code := .outOfMemory
        detail := name ++ "[" ++ String.ofList (Nat.toDigits 10 length) ++ "]" }
  else .ok ()

/-- Adds an array of zeros. -/
def addArray (m : Memory) (name : String) (length : Nat) : Memory :=
  { cells := m.cells.insert name (Array.replicate length 0.0)
    lengths := m.lengths.insert name length }

/-- Makes an array. -/
def dimension (m : Memory) (name : String) (length : Nat) : Except Diagnostic Memory :=
  (m.canDimension name length).map fun _ => m.addArray name length

end Memory

end Plotline

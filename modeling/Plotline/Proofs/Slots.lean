/-
Module: Plotline.Proofs.Slots
Layer: Proofs
Purpose: Variables and the slots that hold their numbers. A variable is read from the slot in which it is
  located, a write changes that slot and no other (`Memory.numberAt?_put`), and a new array adds slots that
  hold zeros. In a coherent memory every array has as many slots as its length says, so that an offset that
  was found is never outside what is stored; writing and making arrays keep a memory coherent.
Main exports: Memory.numberAt?, Memory.get_eq_ok, Memory.numberAt?_put, Memory.numberAt?_addArray,
  Memory.IsCoherent, Memory.IsCoherent.cell_of_offset, Memory.IsCoherent.put
-/
import Plotline.Memory
import Plotline.Proofs.Outcome

namespace Plotline

namespace Memory

/-- The number in a slot, if there is such a slot. -/
def numberAt? (m : Memory) : Slot → Option Float
  | .scalar name => if m.isArray name then none else m.cells[name]? >>= (·[0]?)
  | .element name offset => if m.isArray name then m.cells[name]? >>= (·[offset]?) else none

/-- The number in a variable, where a subscript belongs to arrays only. -/
def get (m : Memory) : Variable → Except Diagnostic Float
  | .scalar name => m.fetch name
  | .element name subscript => m.fetchElement name subscript

variable {m next : Memory} {place : Variable} {slot : Slot} {x : Float}

/-! ### Locating a variable -/

theorem locate_scalar_eq_ok {name : String} :
    m.locate (.scalar name) = .ok slot ↔ m.isArray name = false ∧ slot = .scalar name := by
  unfold locate
  dsimp only
  cases m.isArray name with
  | true => simp
  | false => simp [eq_comm]

/-- An element is located where its offset is, if a number is stored there. -/
theorem locate_element_eq_ok {name : String} {subscript : Subscript} :
    m.locate (.element name subscript) = .ok slot ↔
      ∃ offset x, m.offset name subscript = .ok offset ∧ m.cell name offset = .ok x ∧
        slot = .element name offset := by
  unfold locate
  constructor
  · intro located
    obtain ⟨offset, found, located⟩ := bind_eq_ok.1 located
    cases stored : m.cell name offset with
    | error problem =>
        rw [stored] at located
        cases located
    | ok x =>
        rw [stored] at located
        cases located
        exact ⟨offset, x, found, stored, rfl⟩
  · rintro ⟨offset, x, found, stored, rfl⟩
    refine bind_eq_ok.2 ⟨offset, found, ?_⟩
    rw [stored]
    rfl

theorem lengthOf_eq_ok {name : String} {length : Nat} :
    m.lengthOf name = .ok length ↔ m.lengths[name]? = some length := by
  unfold lengthOf
  cases m.lengths[name]? with
  | some other => simp
  | none => cases m.isUsed name <;> simp

theorem isArray_of_offset {name : String} {subscript : Subscript} {offset : Nat}
    (found : m.offset name subscript = .ok offset) : m.isArray name = true := by
  obtain ⟨length, declared, _⟩ := bind_eq_ok.1 found
  unfold isArray
  rw [Std.HashMap.contains_eq_isSome_getElem?, lengthOf_eq_ok.1 declared]
  rfl

/-! ### Reading and writing a slot -/

/-- A number is stored at an offset exactly if the slot of that element holds it. -/
theorem cell_eq_ok {name : String} {offset : Nat} (isArray : m.isArray name = true) :
    m.cell name offset = .ok x ↔ m.numberAt? (.element name offset) = some x := by
  simp only [cell, numberAt?, isArray, if_true]
  cases m.cells[name]? >>= (·[offset]?) <;> simp

/-- A variable is read from the slot it is located in. -/
theorem get_eq_ok : m.get place = .ok x ↔ ∃ slot, m.locate place = .ok slot ∧ m.numberAt? slot = some x := by
  cases place with
  | scalar name =>
      simp only [locate_scalar_eq_ok, get, fetch]
      cases isArray : m.isArray name with
      | true => simp
      | false =>
          simp only [numberAt?, isArray, Bool.false_eq_true, if_false, true_and, exists_eq_left]
          cases m.cells[name]? >>= (·[0]?) <;> simp
  | element name subscript =>
      simp only [locate_element_eq_ok, get, fetchElement, bind_eq_ok]
      constructor
      · rintro ⟨offset, found, stored⟩
        exact ⟨_, ⟨offset, x, found, stored, rfl⟩, (cell_eq_ok (isArray_of_offset found)).1 stored⟩
      · rintro ⟨_, ⟨offset, _, found, _, rfl⟩, holds⟩
        exact ⟨offset, found, (cell_eq_ok (isArray_of_offset found)).2 holds⟩

@[simp] theorem isArray_put (m : Memory) (slot : Slot) (x : Float) (name : String) :
    (m.put slot x).isArray name = m.isArray name := by
  cases slot <;> rfl

theorem cells_put_scalar (m : Memory) (name : String) (x : Float) (other : String) :
    (m.put (.scalar name) x).cells[other]? = if name = other then some #[x] else m.cells[other]? := by
  simp [put, Std.HashMap.getElem?_insert]

theorem cells_put_element (m : Memory) (name : String) (offset : Nat) (x : Float) (other : String) :
    (m.put (.element name offset) x).cells[other]? =
      if name = other then m.cells[name]?.map (·.setIfInBounds offset x) else m.cells[other]? := by
  simp [put, Std.HashMap.getElem?_modify]

/-- Putting a number into a slot that was located changes that slot and no other. -/
theorem numberAt?_put (located : m.locate place = .ok slot) (x : Float) (other : Slot) :
    (m.put slot x).numberAt? other = if other = slot then some x else m.numberAt? other := by
  cases place with
  | scalar name =>
      obtain ⟨notArray, rfl⟩ := locate_scalar_eq_ok.1 located
      cases other with
      | scalar other =>
          by_cases here : name = other
          · subst here
            simp [numberAt?, notArray, cells_put_scalar]
          · simp [numberAt?, cells_put_scalar, here, Ne.symm here]
      | element other offset =>
          by_cases here : name = other
          · subst here
            simp [numberAt?, notArray]
          · simp [numberAt?, cells_put_scalar, here]
  | element name subscript =>
      obtain ⟨offset, y, found, stored, rfl⟩ := locate_element_eq_ok.1 located
      have isArray := isArray_of_offset found
      cases other with
      | scalar other =>
          by_cases here : name = other
          · subst here
            simp [numberAt?, isArray]
          · simp [numberAt?, cells_put_element, here]
      | element other position =>
          by_cases here : name = other
          · subst here
            rw [cell_eq_ok isArray] at stored
            simp only [numberAt?, isArray, if_true, Option.bind_eq_bind] at stored
            obtain ⟨values, cells, inside⟩ := Option.bind_eq_some_iff.1 stored
            simp only [numberAt?, isArray_put, isArray, if_true, cells_put_element, cells,
              Option.map_some, Option.bind_eq_bind, Option.bind_some, Slot.element.injEq, true_and]
            by_cases same : position = offset
            · subst same
              rw [if_pos rfl]
              exact Array.getElem?_setIfInBounds_self_of_lt (Array.getElem?_eq_some_iff.1 inside).1
            · rw [if_neg same, Array.getElem?_setIfInBounds_ne (Ne.symm same)]
          · simp [numberAt?, cells_put_element, here, Ne.symm here]

theorem assign_eq_ok :
    m.assign place x = .ok next ↔ ∃ slot, m.locate place = .ok slot ∧ next = m.put slot x := by
  unfold assign
  rw [map_eq_ok]
  simp only [eq_comm]

/-- Writing a variable that is in another slot leaves the number in a slot alone. -/
theorem numberAt?_assign (holds : m.numberAt? slot = some x) (elsewhere : m.locate place ≠ .ok slot)
    {y : Float} (assigned : m.assign place y = .ok next) : next.numberAt? slot = some x := by
  obtain ⟨other, located, rfl⟩ := assign_eq_ok.1 assigned
  rw [numberAt?_put located, if_neg]
  · exact holds
  · rintro rfl
    exact elsewhere located

theorem store_eq (m : Memory) (name : String) (x : Float) :
    m.store name x =
      if m.isArray name then .error (arrayMismatch name) else .ok (m.put (.scalar name) x) := by
  unfold store assign locate
  dsimp only
  split <;> rfl

/-! ### New arrays -/

theorem canDimension_eq_ok {name : String} {length : Nat} :
    m.canDimension name length = .ok () ↔ m.isUsed name = false ∧ length ≤ lengthLimit := by
  unfold canDimension
  cases m.isUsed name with
  | true => simp
  | false =>
      by_cases bounded : length ≤ lengthLimit
      · simp [bounded, Nat.not_lt.2 bounded]
      · simp [bounded, Nat.not_le.1 bounded]

theorem dimension_eq_ok {name : String} {length : Nat} :
    m.dimension name length = .ok next ↔
      (m.isUsed name = false ∧ length ≤ lengthLimit) ∧ next = m.addArray name length := by
  unfold dimension
  rw [map_eq_ok, ← canDimension_eq_ok]
  constructor
  · rintro ⟨_, free, rfl⟩
    exact ⟨free, rfl⟩
  · rintro ⟨free, rfl⟩
    exact ⟨(), free, rfl⟩

/-- A new array holds zeros, and what was held before stays. -/
theorem numberAt?_addArray {name : String} (free : m.isUsed name = false) (length : Nat) :
    (∀ offset < length, (m.addArray name length).numberAt? (.element name offset) = some 0.0) ∧
    ∀ slot x, m.numberAt? slot = some x → (m.addArray name length).numberAt? slot = some x := by
  have nothing : m.cells[name]? = none := by simpa [isUsed] using free
  constructor
  · intro offset inside
    simp [numberAt?, addArray, isArray, inside]
  · intro slot x holds
    cases slot with
    | scalar other | element other =>
        by_cases here : name = other
        · subst here
          simp [numberAt?, nothing] at holds
        · rw [← holds]
          simp [numberAt?, addArray, isArray, Std.HashMap.getElem?_insert, here]

/-! ### Coherence -/

/-- Every array has as many numbers stored as its length says. -/
def IsCoherent (m : Memory) : Prop :=
  ∀ (name : String) (length : Nat), m.lengths[name]? = some length →
    ∃ values : Array Float, m.cells[name]? = some values ∧ values.size = length

namespace IsCoherent

theorem empty : IsCoherent Memory.empty := by
  intro name length declared
  simp [Memory.empty] at declared

/-- An offset that was found is within what is stored. -/
theorem cell_of_offset (coherent : m.IsCoherent) {name : String} {subscript : Subscript} {offset : Nat}
    (found : m.offset name subscript = .ok offset) : ∃ x, m.cell name offset = .ok x := by
  obtain ⟨length, declared, found⟩ := bind_eq_ok.1 found
  obtain ⟨value, _, found⟩ := bind_eq_ok.1 found
  have inside : offset < length := by
    unfold offsetOf at found
    split at found
    · cases found
    · split at found
      · rename_i k _ bounds
        cases found
        omega
      · cases found
  obtain ⟨values, stored, size⟩ := coherent name length (lengthOf_eq_ok.1 declared)
  subst size
  exact ⟨values[offset], by simp [cell, stored, inside]⟩

theorem put (coherent : m.IsCoherent) (located : m.locate place = .ok slot) (x : Float) :
    (m.put slot x).IsCoherent := by
  intro name length declared
  cases place with
  | scalar other =>
      obtain ⟨notArray, rfl⟩ := locate_scalar_eq_ok.1 located
      have apart : other ≠ name := by
        rintro rfl
        have plain : m.lengths[other]? = none := by simpa [isArray] using notArray
        exact absurd (plain.symm.trans declared) (by simp)
      rw [cells_put_scalar, if_neg apart]
      exact coherent name length declared
  | element other subscript =>
      obtain ⟨offset, _, _, _, rfl⟩ := locate_element_eq_ok.1 located
      obtain ⟨values, stored, size⟩ := coherent name length declared
      rw [cells_put_element]
      split
      · rename_i same
        subst same
        exact ⟨_, by rw [stored]; rfl, by simpa using size⟩
      · exact ⟨values, stored, size⟩

theorem addArray (coherent : m.IsCoherent) (name : String) (length : Nat) :
    (m.addArray name length).IsCoherent := by
  intro other declaredLength declared
  simp only [Memory.addArray, Std.HashMap.getElem?_insert, beq_iff_eq] at declared ⊢
  by_cases here : name = other
  · rw [if_pos here] at declared ⊢
    cases declared
    exact ⟨_, rfl, Array.size_replicate⟩
  · rw [if_neg here] at declared ⊢
    exact coherent other declaredLength declared

end IsCoherent

end Memory

end Plotline

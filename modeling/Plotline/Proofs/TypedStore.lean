/-
Module: Plotline.Proofs.TypedStore
Layer: Proofs
Purpose: The variables of a program behave as a plain typed store, in which each name stands for nothing, for
  one number, or for an array whose elements are counted from one to its length. The memory keeps this in
  two tables; `Memory.Represents` says how, each operation keeps it and answers as the store does
  (`Represents.perform`), and so does any sequence of operations. A number written to a slot stays there
  until an operation overwrites that slot.
Main exports: Holding, TypedStore, Memory.Operation, Memory.Answer, Memory.Represents, Represents.perform,
  Memory.Spares, Memory.numberAt?_afterOperations, Memory.refines_typed_store
-/
import Mathlib.Logic.Function.Basic
import Plotline.Proofs.ExactValue
import Plotline.Proofs.Slots

namespace Plotline

open Diagnostic (Code)

/-! ### The typed store -/

/-- The subscripts of an array: from one to its length. -/
abbrev Position (length : Nat) : Type :=
  { k : Int // 1 ≤ k ∧ k ≤ length }

/-- What a name stands for. -/
inductive Holding where
  | nothing
  | number (x : Float)
  | array (length : Nat) (bounded : length ≤ Memory.lengthLimit) (element : Position length → Float)

/-- What each name stands for. -/
abbrev TypedStore : Type :=
  String → Holding

namespace TypedStore

/-- No name stands for anything. -/
def empty : TypedStore := fun _ => .nothing

/-- The name stands for an array. -/
def isArray (s : TypedStore) (name : String) : Bool :=
  match s name with
  | .array .. => true
  | .nothing | .number _ => false

/-- The number that a name stands for. -/
def fetch (s : TypedStore) (name : String) : Except Code Float :=
  match s name with
  | .nothing => .error .undefinedVariable
  | .number x => .ok x
  | .array .. => .error .typeMismatch

/-- Makes a name stand for a number, unless it stands for an array. -/
def store (s : TypedStore) (name : String) (x : Float) : Except Code TypedStore :=
  match s name with
  | .nothing | .number _ => .ok (Function.update s name (.number x))
  | .array .. => .error .typeMismatch

/-- The value of a subscript: a literal, or the number that a name stands for. -/
def subscriptValue (s : TypedStore) : Subscript → Except Code Float
  | .literal x => .ok x
  | .name name => s.fetch name

/-- The position that a number names in an array. It has to be an integer, from one to the length. -/
def position (length : Nat) (x : Float) : Except Code (Position length) :=
  if Number.isFinite x = true ∧ (Number.exactValue x).den = 1 then
    if inside : 1 ≤ (Number.exactValue x).num ∧ (Number.exactValue x).num ≤ length then
      .ok ⟨(Number.exactValue x).num, inside⟩
    else .error .subscriptOutOfRange
  else .error .badSubscript

/-- The position that a subscript names in an array. -/
def resolve (s : TypedStore) (length : Nat) (subscript : Subscript) :
    Except Code (Position length) := do
  let x ← s.subscriptValue subscript
  position length x

/-- The number in an array element. Only of an array is the subscript looked at. -/
def fetchElement (s : TypedStore) (name : String) (subscript : Subscript) : Except Code Float :=
  match s name with
  | .nothing => .error .undefinedVariable
  | .number _ => .error .typeMismatch
  | .array length _ element => (s.resolve length subscript).map element

/-- Puts a number into an array element. -/
def storeElement (s : TypedStore) (name : String) (subscript : Subscript) (x : Float) :
    Except Code TypedStore :=
  match s name with
  | .nothing => .error .undefinedVariable
  | .number _ => .error .typeMismatch
  | .array length bounded element =>
      (s.resolve length subscript).map fun k =>
        Function.update s name (.array length bounded (Function.update element k x))

/-- Makes a name that stands for nothing stand for an array of zeros. -/
def dimension (s : TypedStore) (name : String) (length : Nat) : Except Code TypedStore :=
  match s name with
  | .nothing =>
      if bounded : length ≤ Memory.lengthLimit then
        .ok (Function.update s name (.array length bounded fun _ => 0.0))
      else .error .outOfMemory
  | .number _ | .array .. => .error .redimensionedArray

end TypedStore

/-! ### Operations and their answers -/

namespace Memory

/-- What can be asked of the variables. -/
inductive Operation where
  | store (name : String) (x : Float)
  | fetch (name : String)
  | storeElement (name : String) (subscript : Subscript) (x : Float)
  | fetchElement (name : String) (subscript : Subscript)
  | dimension (name : String) (length : Nat)
  | isArray (name : String)
  | clear

/-- What an operation answers: that it is done, a number, a truth value, or the cause for which it is
    refused. -/
inductive Answer where
  | done
  | number (x : Float)
  | truth (b : Bool)
  | refused (code : Code)

/-- The answer of an operation that reads. -/
def Answer.ofRead : Except Code Float → Answer
  | .ok x => .number x
  | .error code => .refused code

/-- The answer of an operation that writes, and what it leaves. One that is refused leaves all as it was. -/
def Answer.ofWrite {σ : Type} (before : σ) : Except Code σ → Answer × σ
  | .ok next => (.done, next)
  | .error code => (.refused code, before)

/-- Carries out an operation on the memory. -/
def perform (m : Memory) : Operation → Answer × Memory
  | .store name x => Answer.ofWrite m ((m.store name x).mapError Diagnostic.code)
  | .fetch name => (.ofRead ((m.fetch name).mapError Diagnostic.code), m)
  | .storeElement name subscript x =>
      Answer.ofWrite m ((m.storeElement name subscript x).mapError Diagnostic.code)
  | .fetchElement name subscript =>
      (.ofRead ((m.fetchElement name subscript).mapError Diagnostic.code), m)
  | .dimension name length =>
      Answer.ofWrite m ((m.dimension name length).mapError Diagnostic.code)
  | .isArray name => (.truth (m.isArray name), m)
  | .clear => (.done, empty)

end Memory

open Memory (Answer Operation)

/-- Carries out an operation on the typed store. -/
def TypedStore.perform (s : TypedStore) : Operation → Answer × TypedStore
  | .store name x => Answer.ofWrite s (s.store name x)
  | .fetch name => (.ofRead (s.fetch name), s)
  | .storeElement name subscript x => Answer.ofWrite s (s.storeElement name subscript x)
  | .fetchElement name subscript => (.ofRead (s.fetchElement name subscript), s)
  | .dimension name length => Answer.ofWrite s (s.dimension name length)
  | .isArray name => (.truth (s.isArray name), s)
  | .clear => (.done, empty)

namespace Memory

/-- The answers of operations carried out one after the other. -/
def answers {σ : Type} (perform : σ → Operation → Answer × σ) (s : σ) : List Operation → List Answer
  | [] => []
  | op :: rest => (perform s op).1 :: answers perform (perform s op).2 rest

/-- The memory after some operations. -/
def afterOperations (m : Memory) : List Operation → Memory
  | [] => m
  | op :: rest => (m.perform op).2.afterOperations rest

/-! ### How the memory represents a store -/

/-- The memory holds under a name what the name stands for: the numbers under the name in one table, and in
    the other the length if it is an array. -/
inductive Holds (m : Memory) (name : String) : Holding → Prop where
  | nothing (free : m.cells[name]? = none) (plain : m.lengths[name]? = none) : Holds m name .nothing
  | number {x : Float} (stored : m.cells[name]? = some #[x]) (plain : m.lengths[name]? = none) :
      Holds m name (.number x)
  | array {length : Nat} {bounded : length ≤ lengthLimit} {element : Position length → Float}
      {values : Array Float} (stored : m.cells[name]? = some values) (size : values.size = length)
      (declared : m.lengths[name]? = some length)
      (elements : ∀ k : Position length, values[(k.1 - 1).toNat]? = some (element k)) :
      Holds m name (.array length bounded element)

/-- The memory holds what each name of the store stands for. -/
def Represents (m : Memory) (s : TypedStore) : Prop :=
  ∀ name, m.Holds name (s name)

/-- A result of the memory agrees with one of the store: both are refused for the same cause, or the memory
    goes on representing the store. -/
inductive Agrees : Except Diagnostic Memory → Except Code TypedStore → Prop where
  | done {m : Memory} {s : TypedStore} (represents : m.Represents s) : Agrees (.ok m) (.ok s)
  | refused (problem : Diagnostic) : Agrees (.error problem) (.error problem.code)

theorem Holds.of_eq {m next : Memory} {name : String} {held : Holding} (holds : m.Holds name held)
    (cells : next.cells[name]? = m.cells[name]?) (lengths : next.lengths[name]? = m.lengths[name]?) :
    next.Holds name held := by
  cases holds with
  | nothing free plain => exact .nothing (cells.trans free) (lengths.trans plain)
  | number stored plain => exact .number (cells.trans stored) (lengths.trans plain)
  | array stored size declared elements =>
      exact .array (cells.trans stored) size (lengths.trans declared) elements

/-- The offset that a number names in an array is one less than its position. -/
theorem offsetOf_eq (name : String) (length : Nat) (x : Float) :
    (offsetOf name length x).mapError Diagnostic.code =
      (TypedStore.position length x).map fun k => (k.1 - 1).toNat := by
  unfold offsetOf TypedStore.position
  rw [Number.integer?_eq]
  by_cases whole : Number.isFinite x = true ∧ (Number.exactValue x).den = 1
  · rw [if_pos whole, if_pos whole]
    dsimp only
    by_cases inside : 1 ≤ (Number.exactValue x).num ∧ (Number.exactValue x).num ≤ length
    · rw [if_pos inside, dif_pos inside]
      rfl
    · rw [if_neg inside, dif_neg inside]
      rfl
  · rw [if_neg whole, if_neg whole]
    rfl

namespace Represents

variable {m : Memory} {s : TypedStore}

/-- A change under one name keeps what is held under the others. -/
theorem update (represents : m.Represents s) {next : Memory} {name : String} {held : Holding}
    (cells : ∀ other, other ≠ name → next.cells[other]? = m.cells[other]?)
    (lengths : ∀ other, other ≠ name → next.lengths[other]? = m.lengths[other]?)
    (holds : next.Holds name held) : next.Represents (Function.update s name held) := by
  intro other
  by_cases here : other = name
  · subst here
    rw [Function.update_self]
    exact holds
  · rw [Function.update_of_ne here]
    exact (represents other).of_eq (cells other here) (lengths other here)

theorem empty : Memory.empty.Represents TypedStore.empty := by
  intro name
  exact .nothing (by simp [Memory.empty]) (by simp [Memory.empty])

/-! ### Reading -/

theorem isArray_eq (represents : m.Represents s) (name : String) : m.isArray name = s.isArray name := by
  have holds := represents name
  unfold Memory.isArray TypedStore.isArray
  rw [Std.HashMap.contains_eq_isSome_getElem?]
  cases held : s name with
  | nothing | number =>
      rw [held] at holds
      cases holds
      simp [*]
  | array =>
      rw [held] at holds
      cases holds
      simp [*]

theorem fetch_eq (represents : m.Represents s) (name : String) :
    (m.fetch name).mapError Diagnostic.code = s.fetch name := by
  have holds := represents name
  have same := represents.isArray_eq name
  unfold Memory.fetch
  rw [same]
  unfold TypedStore.fetch TypedStore.isArray
  cases held : s name with
  | nothing =>
      rw [held] at holds
      cases holds with
      | nothing free plain => simp [free, Except.mapError]
  | number x =>
      rw [held] at holds
      cases holds with
      | number stored plain => simp [stored, Except.mapError]
  | array => rfl

theorem subscriptValue_eq (represents : m.Represents s) (subscript : Subscript) :
    (m.subscriptValue subscript).mapError Diagnostic.code = s.subscriptValue subscript := by
  cases subscript with
  | literal x => rfl
  | name name =>
      have fetched := represents.fetch_eq name
      simp only [Memory.subscriptValue, TypedStore.subscriptValue]
      split
      · rename_i isArray
        rw [← fetched, Memory.fetch, if_pos isArray]
        rfl
      · exact fetched

theorem lengthOf_array (represents : m.Represents s) {name : String} {length : Nat}
    {bounded : length ≤ lengthLimit} {element : Position length → Float}
    (held : s name = .array length bounded element) : m.lengthOf name = .ok length := by
  have holds := represents name
  rw [held] at holds
  cases holds with
  | array stored size declared elements => rw [lengthOf, declared]

/-- In an array the offset of a subscript is one less than the position it names, and it is within what is
    stored. -/
theorem offset_array (represents : m.Represents s) {name : String} {length : Nat}
    {bounded : length ≤ lengthLimit} {element : Position length → Float}
    (held : s name = .array length bounded element) (subscript : Subscript) :
    (m.offset name subscript).mapError Diagnostic.code =
      (s.resolve length subscript).map fun k => (k.1 - 1).toNat := by
  unfold offset TypedStore.resolve
  rw [represents.lengthOf_array held, ← represents.subscriptValue_eq subscript]
  cases m.subscriptValue subscript with
  | error problem => rfl
  | ok x => exact offsetOf_eq name length x

theorem cell_array (represents : m.Represents s) {name : String} {length : Nat}
    {bounded : length ≤ lengthLimit} {element : Position length → Float}
    (held : s name = .array length bounded element) (k : Position length) :
    m.cell name (k.1 - 1).toNat = .ok (element k) := by
  have holds := represents name
  rw [held] at holds
  cases holds with
  | array stored size declared elements =>
      unfold cell
      rw [stored, Option.bind_eq_bind, Option.bind_some, elements k]

/-- A name is in use unless it stands for nothing. -/
theorem isUsed_eq_false_iff (represents : m.Represents s) {name : String} :
    m.isUsed name = false ↔ s name = .nothing := by
  have holds := represents name
  unfold isUsed
  rw [Std.HashMap.contains_eq_isSome_getElem?]
  cases held : s name with
  | nothing =>
      rw [held] at holds
      cases holds with
      | nothing free plain => simp [free]
  | number | array =>
      rw [held] at holds
      cases holds
      simp [*]

/-- A name that is no array has no elements, and the report says whether it is in use. -/
theorem offset_scalar (represents : m.Represents s) {name : String} (scalar : s.isArray name = false)
    (subscript : Subscript) :
    ∃ problem, m.offset name subscript = .error problem ∧
      problem.code = if m.isUsed name then .typeMismatch else .undefinedVariable := by
  have declared : m.lengths[name]? = none := by
    rw [← represents.isArray_eq, isArray, Std.HashMap.contains_eq_isSome_getElem?] at scalar
    simpa using scalar
  unfold offset lengthOf
  rw [declared]
  cases m.isUsed name with
  | true => exact ⟨_, rfl, rfl⟩
  | false => exact ⟨_, rfl, rfl⟩

/-- An element is found at the same position in both, or in neither, and then for the same cause. -/
theorem offset_cases (represents : m.Represents s) (name : String) (subscript : Subscript) :
    (∃ problem, m.offset name subscript = .error problem ∧
      s.fetchElement name subscript = .error problem.code ∧
      ∀ x, s.storeElement name subscript x = .error problem.code) ∨
    ∃ length bounded element k, s name = .array length bounded element ∧
      s.resolve length subscript = .ok k ∧ m.offset name subscript = .ok (k.1 - 1).toNat := by
  unfold TypedStore.fetchElement TypedStore.storeElement
  cases held : s name with
  | nothing =>
      have scalar : s.isArray name = false := by simp [TypedStore.isArray, held]
      obtain ⟨problem, failed, code⟩ := represents.offset_scalar scalar subscript
      rw [represents.isUsed_eq_false_iff.2 held] at code
      exact Or.inl ⟨problem, failed, by rw [code]; rfl, fun _ => by rw [code]; rfl⟩
  | number x =>
      have scalar : s.isArray name = false := by simp [TypedStore.isArray, held]
      have used : m.isUsed name = true := by
        rw [← Bool.not_eq_false, represents.isUsed_eq_false_iff, held]
        simp
      obtain ⟨problem, failed, code⟩ := represents.offset_scalar scalar subscript
      rw [used] at code
      exact Or.inl ⟨problem, failed, by rw [code]; rfl, fun _ => by rw [code]; rfl⟩
  | array length bounded element =>
      have offset := represents.offset_array held subscript
      dsimp only
      cases resolved : s.resolve length subscript with
      | error code =>
          rw [resolved] at offset
          obtain ⟨problem, failed, rfl⟩ := mapError_eq_error.1 offset
          exact Or.inl ⟨problem, failed, rfl, fun _ => rfl⟩
      | ok k =>
          rw [resolved] at offset
          exact Or.inr ⟨length, bounded, element, k, rfl, resolved, mapError_eq_ok.1 offset⟩

theorem fetchElement_eq (represents : m.Represents s) (name : String) (subscript : Subscript) :
    (m.fetchElement name subscript).mapError Diagnostic.code = s.fetchElement name subscript := by
  rcases represents.offset_cases name subscript with
    ⟨problem, failed, refused, _⟩ | ⟨length, bounded, element, k, held, resolved, found⟩
  · rw [fetchElement, failed, refused]
    rfl
  · rw [fetchElement, found, TypedStore.fetchElement, held]
    dsimp only
    rw [resolved]
    exact mapError_eq_ok.2 (represents.cell_array held k)

/-! ### Writing -/

theorem store (represents : m.Represents s) (name : String) (x : Float) :
    Agrees (m.store name x) (s.store name x) := by
  rw [store_eq]
  by_cases isArray : m.isArray name = true
  · rw [if_pos isArray]
    rw [represents.isArray_eq] at isArray
    unfold TypedStore.store
    unfold TypedStore.isArray at isArray
    cases held : s name with
    | nothing | number => simp [held] at isArray
    | array => exact .refused (arrayMismatch name)
  · rw [if_neg isArray]
    have declared : m.lengths[name]? = none := by simpa [Memory.isArray] using isArray
    have stored : s.store name x = .ok (Function.update s name (.number x)) := by
      rw [represents.isArray_eq] at isArray
      unfold TypedStore.store
      unfold TypedStore.isArray at isArray
      cases held : s name with
      | nothing | number => rfl
      | array => simp [held] at isArray
    rw [stored]
    refine .done (represents.update ?_ (fun _ _ => rfl) ?_)
    · intro other elsewhere
      rw [cells_put_scalar, if_neg (Ne.symm elsewhere)]
    · exact .number (by rw [cells_put_scalar, if_pos rfl]) declared

/-- Putting a number into an element changes that element. -/
theorem put_element (represents : m.Represents s) {name : String} {length : Nat}
    {bounded : length ≤ lengthLimit} {element : Position length → Float}
    (held : s name = .array length bounded element) (k : Position length) (x : Float) :
    (m.put (.element name (k.1 - 1).toNat) x).Represents
      (Function.update s name (.array length bounded (Function.update element k x))) := by
  have holds := represents name
  rw [held] at holds
  cases holds with
  | @array _ _ _ values stored size declared elements =>
      refine represents.update ?_ (fun _ _ => rfl) ?_
      · intro other elsewhere
        rw [cells_put_element, if_neg (Ne.symm elsewhere)]
      · have written : (m.put (.element name (k.1 - 1).toNat) x).cells[name]? =
            some (values.setIfInBounds (k.1 - 1).toNat x) := by
          rw [cells_put_element, if_pos rfl, stored]
          rfl
        refine .array written ?_ declared ?_
        · simpa using size
        · intro other
          by_cases here : other = k
          · subst here
            have inside : (other.1 - 1).toNat < values.size :=
              (Array.getElem?_eq_some_iff.1 (elements other)).1
            rw [Array.getElem?_setIfInBounds_self_of_lt inside, Function.update_self]
          · have apart : (k.1 - 1).toNat ≠ (other.1 - 1).toNat := by
              intro same
              apply here
              apply Subtype.ext
              have first := k.2.1
              have second := other.2.1
              omega
            rw [Array.getElem?_setIfInBounds_ne apart, Function.update_of_ne here]
            exact elements other

theorem storeElement (represents : m.Represents s) (name : String) (subscript : Subscript) (x : Float) :
    Agrees (m.storeElement name subscript x) (s.storeElement name subscript x) := by
  unfold Memory.storeElement assign
  rcases represents.offset_cases name subscript with
    ⟨problem, failed, _, refused⟩ | ⟨length, bounded, element, k, held, resolved, found⟩
  · rw [refused, locate, failed]
    exact .refused problem
  · have located : m.locate (.element name subscript) = .ok (.element name (k.1 - 1).toNat) :=
      locate_element_eq_ok.2 ⟨_, _, found, represents.cell_array held k, rfl⟩
    have stored : s.storeElement name subscript x =
        .ok (Function.update s name (.array length bounded (Function.update element k x))) := by
      unfold TypedStore.storeElement
      rw [held]
      dsimp only
      rw [resolved]
      rfl
    rw [located, stored]
    exact .done (represents.put_element held k x)

theorem dimension (represents : m.Represents s) (name : String) (length : Nat) :
    Agrees (m.dimension name length) (s.dimension name length) := by
  unfold Memory.dimension canDimension TypedStore.dimension
  by_cases free : m.isUsed name = false
  · rw [free, represents.isUsed_eq_false_iff.1 free]
    dsimp only
    by_cases bounded : length ≤ lengthLimit
    · rw [dif_pos bounded, if_neg (by simp), if_neg (Nat.not_lt.2 bounded)]
      refine .done (represents.update ?_ ?_ ?_)
      · intro other elsewhere
        simp [addArray, Std.HashMap.getElem?_insert, Ne.symm elsewhere]
      · intro other elsewhere
        simp [addArray, Std.HashMap.getElem?_insert, Ne.symm elsewhere]
      · have made : (m.addArray name length).cells[name]? = some (Array.replicate length 0.0) := by
          simp [addArray]
        refine .array made (by simp) (by simp [addArray]) ?_
        intro k
        have first := k.2.1
        have last := k.2.2
        rw [Array.getElem?_replicate, if_pos (by omega)]
    · rw [dif_neg bounded, if_neg (by simp), if_pos (Nat.not_le.1 bounded)]
      exact .refused _
  · have used : m.isUsed name = true := by simpa using free
    rw [used]
    rw [represents.isUsed_eq_false_iff] at free
    cases held : s name with
    | nothing => exact absurd held free
    | number | array => exact .refused { code := .redimensionedArray, detail := name }

/-! ### Any operations -/

/-- What agrees gives the same answer and goes on agreeing, whether it is refused or not. -/
theorem ofWrite (represents : m.Represents s) {result : Except Diagnostic Memory}
    {expected : Except Code TypedStore} (agrees : Agrees result expected) :
    (Answer.ofWrite m (result.mapError Diagnostic.code)).1 = (Answer.ofWrite s expected).1 ∧
      (Answer.ofWrite m (result.mapError Diagnostic.code)).2.Represents
        (Answer.ofWrite s expected).2 := by
  cases agrees with
  | done next => exact ⟨rfl, next⟩
  | refused problem => exact ⟨rfl, represents⟩

/-- The memory answers an operation as the store does, and goes on representing it. -/
theorem perform (represents : m.Represents s) (op : Operation) :
    (m.perform op).1 = (s.perform op).1 ∧ (m.perform op).2.Represents (s.perform op).2 := by
  cases op with
  | store name x => exact represents.ofWrite (represents.store name x)
  | fetch name =>
      exact ⟨congrArg Answer.ofRead (represents.fetch_eq name), represents⟩
  | storeElement name subscript x =>
      exact represents.ofWrite (represents.storeElement name subscript x)
  | fetchElement name subscript =>
      exact ⟨congrArg Answer.ofRead (represents.fetchElement_eq name subscript), represents⟩
  | dimension name length => exact represents.ofWrite (represents.dimension name length)
  | isArray name => exact ⟨congrArg Answer.truth (represents.isArray_eq name), represents⟩
  | clear => exact ⟨rfl, .empty⟩

theorem answers_eq (represents : m.Represents s) (operations : List Operation) :
    answers Memory.perform m operations = answers TypedStore.perform s operations := by
  induction operations generalizing m s with
  | nil => rfl
  | cons op rest ih =>
      obtain ⟨same, next⟩ := represents.perform op
      unfold answers
      rw [same, ih next]

end Represents

/-! ### How long a slot holds its number -/

/-- The operation writes the slot, or forgets all slots. -/
def Overwrites (m : Memory) (slot : Slot) : Operation → Prop
  | .store name _ => m.locate (.scalar name) = .ok slot
  | .storeElement name subscript _ => m.locate (.element name subscript) = .ok slot
  | .clear => True
  | _ => False

/-- None of the operations, carried out one after the other, overwrites the slot. -/
def Spares (m : Memory) (slot : Slot) : List Operation → Prop
  | [] => True
  | op :: rest => ¬ m.Overwrites slot op ∧ (m.perform op).2.Spares slot rest

variable {m next : Memory} {place : Variable} {slot : Slot} {x : Float}

/-- A write leaves what it makes, or all as it was. -/
theorem ofWrite_cases {P : Memory → Prop} (result : Except Diagnostic Memory) (unchanged : P m)
    (changed : ∀ next, result = .ok next → P next) :
    P (Answer.ofWrite m (result.mapError Diagnostic.code)).2 := by
  cases result with
  | ok next => exact changed next rfl
  | error problem => exact unchanged

/-- An operation that does not overwrite a slot leaves its number alone. -/
theorem numberAt?_perform (holds : m.numberAt? slot = some x) {op : Operation}
    (spared : ¬ m.Overwrites slot op) : (m.perform op).2.numberAt? slot = some x := by
  cases op with
  | store name y =>
      exact ofWrite_cases (P := fun m => m.numberAt? slot = some x) _ holds fun next stored =>
        numberAt?_assign holds spared stored
  | storeElement name subscript y =>
      exact ofWrite_cases (P := fun m => m.numberAt? slot = some x) _ holds fun next stored =>
        numberAt?_assign holds spared stored
  | dimension name length =>
      refine ofWrite_cases (P := fun m => m.numberAt? slot = some x) _ holds fun next made => ?_
      obtain ⟨⟨free, _⟩, rfl⟩ := dimension_eq_ok.1 made
      exact (numberAt?_addArray free length).2 slot x holds
  | fetch | fetchElement | isArray => exact holds
  | clear => exact absurd trivial spared

/-- A number stays in its slot as long as no operation overwrites it. -/
theorem numberAt?_afterOperations {operations : List Operation} (holds : m.numberAt? slot = some x)
    (spared : m.Spares slot operations) : (m.afterOperations operations).numberAt? slot = some x := by
  induction operations generalizing m with
  | nil => exact holds
  | cons op rest ih => exact ih (numberAt?_perform holds spared.1) spared.2

/-- An operation that is refused changes nothing. -/
theorem perform_refused {op : Operation} {code : Code} (refused : (m.perform op).1 = .refused code) :
    (m.perform op).2 = m := by
  have write : ∀ result : Except Code Memory,
      (Answer.ofWrite m result).1 = .refused code → (Answer.ofWrite m result).2 = m := by
    intro result refused
    cases result with
    | ok next => cases refused
    | error other => rfl
  cases op with
  | store | storeElement | dimension => exact write _ refused
  | fetch | fetchElement | isArray => rfl
  | clear => cases refused

/-- The variables behave as a typed store. Operations in any number and order, on a memory without
    variables, are answered as the typed store answers them. After any of them a variable is read from the
    slot in which it is located; a write that is done changes this slot and no other, and its number stays
    there until an operation overwrites it; a new array holds zeros, and leaves what other slots hold; and
    an operation that is refused changes nothing. -/
theorem refines_typed_store (operations : List Operation) :
    answers perform empty operations = answers TypedStore.perform TypedStore.empty operations ∧
    let m := empty.afterOperations operations
    (∀ place x, m.get place = .ok x ↔
      ∃ slot, m.locate place = .ok slot ∧ m.numberAt? slot = some x) ∧
    (∀ place x next, m.assign place x = .ok next →
      ∃ slot, m.locate place = .ok slot ∧
        (∀ other, next.numberAt? other = if other = slot then some x else m.numberAt? other) ∧
        ∀ later, next.Spares slot later →
          (next.afterOperations later).numberAt? slot = some x) ∧
    (∀ name length next, m.dimension name length = .ok next →
      (∀ offset < length, next.numberAt? (.element name offset) = some 0.0) ∧
      ∀ slot x, m.numberAt? slot = some x → next.numberAt? slot = some x) ∧
    ∀ op code, (m.perform op).1 = .refused code → (m.perform op).2 = m := by
  refine ⟨Represents.empty.answers_eq operations, fun place x => get_eq_ok, ?_, ?_,
    fun op code => perform_refused⟩
  · intro place x next assigned
    obtain ⟨slot, located, rfl⟩ := assign_eq_ok.1 assigned
    have written := numberAt?_put located x
    refine ⟨slot, located, written, fun later spared => ?_⟩
    exact numberAt?_afterOperations (by rw [written, if_pos rfl]) spared
  · intro name length next made
    obtain ⟨⟨free, _⟩, rfl⟩ := dimension_eq_ok.1 made
    exact numberAt?_addArray free length

end Memory

end Plotline

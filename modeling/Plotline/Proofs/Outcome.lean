/-
Module: Plotline.Proofs.Outcome
Layer: Proofs
Purpose: Taking computations that can fail apart. A computation in two parts gives a result exactly when its
  first part gives one and the second part goes on from there; this is said once for plain outcomes and once
  for work on a state, of which evaluations are a case. `Yields`, `ReturnsOnly` and `RaisesOnly` say what all
  results or all reports of a computation have in common, and are put together along its steps.
Main exports: bind_eq_ok, bind_eq_error, map_eq_ok, mapError_eq_ok, mapError_eq_error, Yields,
  Work.runFrom_bind, Evaluation.ReturnsOnly, Evaluation.RaisesOnly
-/
import Plotline.Work

namespace Plotline

/-- A result of two steps comes from a result of each. -/
theorem bind_eq_ok {ε α β : Type} {x : Except ε α} {f : α → Except ε β} {b : β} :
    (x >>= f) = .ok b ↔ ∃ a, x = .ok a ∧ f a = .ok b := by
  constructor
  · intro h
    cases x with
    | error e => simp [bind, Except.bind] at h
    | ok a => exact ⟨a, rfl, h⟩
  · rintro ⟨a, rfl, h⟩
    exact h

/-- A report of two steps comes from the first, or from the second after a result of the first. -/
theorem bind_eq_error {ε α β : Type} {x : Except ε α} {f : α → Except ε β} {e : ε} :
    (x >>= f) = .error e ↔ x = .error e ∨ ∃ a, x = .ok a ∧ f a = .error e := by
  cases x with
  | error other => simp [bind, Except.bind]
  | ok a => simp [bind, Except.bind]

/-- A result after a change comes from a result before it. -/
theorem map_eq_ok {ε α β : Type} {x : Except ε α} {f : α → β} {b : β} :
    x.map f = .ok b ↔ ∃ a, x = .ok a ∧ f a = b := by
  cases x with
  | error e => simp [Except.map]
  | ok a => simp [Except.map]

/-- A report after a change comes from a report before it. -/
theorem mapError_eq_error {ε ε' α : Type} {x : Except ε α} {f : ε → ε'} {e : ε'} :
    x.mapError f = .error e ↔ ∃ cause, x = .error cause ∧ f cause = e := by
  cases x with
  | ok a =>
      constructor
      · intro h
        cases h
      · rintro ⟨_, failed, _⟩
        cases failed
  | error cause =>
      constructor
      · intro h
        cases h
        exact ⟨cause, rfl, rfl⟩
      · rintro ⟨_, same, rfl⟩
        cases same
        rfl

theorem mapError_eq_ok {ε ε' α : Type} {x : Except ε α} {f : ε → ε'} {a : α} :
    x.mapError f = .ok a ↔ x = .ok a := by
  cases x with
  | ok b =>
      constructor
      · intro h
        cases h
        rfl
      · intro h
        cases h
        rfl
  | error cause =>
      constructor
      · intro h
        cases h
      · intro h
        cases h

/-- Every result of a computation has a property. -/
def Yields {ε α : Type} (P : α → Prop) (x : Except ε α) : Prop :=
  ∀ a, x = .ok a → P a

namespace Yields

variable {ε α β : Type} {P : β → Prop}

theorem ok {b : β} (h : P b) : Yields P (.ok b : Except ε β) := by
  intro other same
  cases same
  exact h

/-- The results of two steps are results of the second. -/
theorem bind {x : Except ε α} {f : α → Except ε β} (h : ∀ a, Yields P (f a)) : Yields P (x >>= f) := by
  intro b both
  obtain ⟨a, _, second⟩ := bind_eq_ok.1 both
  exact h a b second

end Yields

namespace Work

variable {σ α β : Type}

@[simp] theorem runFrom_pure (a : α) (s : σ) : runFrom (pure a) s = (.ok a, s) := rfl

@[simp] theorem runFrom_check (result : Except Diagnostic α) (s : σ) :
    runFrom (check result) s = (result, s) := rfl

/-- The second part goes on from the state that the first one leaves; a report ends the work. -/
theorem runFrom_bind (x : Work σ α) (f : α → Work σ β) (s : σ) :
    runFrom (x >>= f) s =
      match runFrom x s with
      | (.ok a, next) => runFrom (f a) next
      | (.error problem, next) => (.error problem, next) := by
  simp only [runFrom, ExceptT.run_bind, StateT.run_bind]
  rcases StateT.run (ExceptT.run x) s with ⟨outcome, next⟩
  cases outcome with
  | ok a => rfl
  | error problem => rfl

theorem runFrom_bind_ok {x : Work σ α} {f : α → Work σ β} {b : β} {s last : σ}
    (h : runFrom (x >>= f) s = (.ok b, last)) :
    ∃ a next, runFrom x s = (.ok a, next) ∧ runFrom (f a) next = (.ok b, last) := by
  rw [runFrom_bind] at h
  rcases hx : runFrom x s with ⟨outcome, next⟩
  cases outcome with
  | ok a =>
      rw [hx] at h
      exact ⟨a, next, rfl, h⟩
  | error problem =>
      rw [hx] at h
      simp at h

end Work

namespace Evaluation

open Work (runFrom runFrom_bind runFrom_bind_ok)

variable {α β : Type}

/-- Every result of the evaluation, from whatever generator, has a property. -/
def ReturnsOnly (P : α → Prop) (e : Evaluation α) : Prop :=
  ∀ g a last, e.runFrom g = (.ok a, last) → P a

namespace ReturnsOnly

variable {P : β → Prop}

theorem pure {b : β} (h : P b) : ReturnsOnly P (Pure.pure b : Evaluation β) := by
  intro g other last same
  cases same
  exact h

theorem bind {x : Evaluation α} {f : α → Evaluation β} (h : ∀ a, ReturnsOnly P (f a)) :
    ReturnsOnly P (x >>= f) := by
  intro g b last both
  obtain ⟨a, next, _, second⟩ := runFrom_bind_ok both
  exact h a next b last second

/-- What comes after a check may rely on it. -/
theorem check_bind {result : Except Diagnostic α} {f : α → Evaluation β}
    (h : ∀ a, result = .ok a → ReturnsOnly P (f a)) :
    ReturnsOnly P (Work.check result >>= f) := by
  intro g b last both
  obtain ⟨a, next, checked, second⟩ := runFrom_bind_ok both
  exact h a (congrArg Prod.fst checked) next b last second

end ReturnsOnly

/-- Every report of the evaluation, from whatever generator, has a property. -/
def RaisesOnly (P : Diagnostic → Prop) (e : Evaluation α) : Prop :=
  ∀ g problem, (e.runFrom g).1 = .error problem → P problem

namespace RaisesOnly

variable {P : Diagnostic → Prop}

theorem pure (a : α) : RaisesOnly P (Pure.pure a : Evaluation α) := by
  intro g problem h
  simp at h

theorem check {result : Except Diagnostic α} (h : ∀ problem, result = .error problem → P problem) :
    RaisesOnly P (Work.check result) := by
  intro g problem raised
  exact h problem raised

theorem throw {problem : Diagnostic} (h : P problem) :
    RaisesOnly P (throw problem : Evaluation α) := by
  intro g other raised
  have same : Except.error problem = (Except.error other : Except Diagnostic α) := raised
  injection same with same
  exact same ▸ h

theorem bind {x : Evaluation α} {f : α → Evaluation β} (first : RaisesOnly P x)
    (second : ∀ a, RaisesOnly P (f a)) : RaisesOnly P (x >>= f) := by
  intro g problem raised
  rw [runFrom_bind] at raised
  rcases hx : runFrom x g with ⟨outcome, next⟩
  cases outcome with
  | ok a =>
      rw [hx] at raised
      exact second a next problem raised
  | error other =>
      rw [hx] at raised
      injection raised with same
      subst same
      exact first g other (by rw [hx])

end RaisesOnly

end Evaluation

end Plotline

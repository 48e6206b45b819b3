/-
Module: Plotline.Proofs.Budget
Layer: Proofs
Purpose: A budget cuts a run into slices and does nothing else. Going on after a slice that used up its
  budget is the same as having had the larger budget from the start (`execute_add`), so a caller who answers
  the inputs of a program sees the same events whatever budgets it hands out, only more or fewer of them
  (`Dialogue.budgets_change_nothing`). Both rest on two facts about one statement: it never claims that a
  budget is used up, and without an event it leaves the machine running and with the same reports pending.
Main exports: Machine.execute_add, Dialogue, Dialogue.signals, Dialogue.budgets_change_nothing
-/
import Plotline.Proofs.Step

namespace Plotline

namespace Machine

/-! ### Slices of a run -/

/-- Running on after a slice that used up its budget is running with both budgets at once. -/
theorem run_add (first second : Nat) (m : Machine) :
    run (first + second) m =
      if (run first m).1 = .running then run second (run first m).2 else run first m := by
  induction first generalizing m with
  | zero => simp [run]
  | succ first ih =>
      rw [Nat.succ_add]
      cases hs : m.program.statement? m.pc with
      | none => simp [run_past_end hs]
      | some s =>
          rcases hstep : m.step s with ⟨event, next⟩
          cases event with
          | none =>
              rw [run_silent hs hstep, run_silent hs hstep]
              exact ih next
          | some event =>
              have hne : event ≠ .running := step_event_ne_running hstep
              rw [run_event hs hstep, run_event hs hstep, if_neg hne]

/-- A slice that used up its budget leaves a ready machine ready. -/
theorem run_ready {budget : Nat} {m : Machine} (ready : m.IsReady)
    (spent : (run budget m).1 = .running) : (run budget m).2.IsReady := by
  induction budget generalizing m with
  | zero => exact ready
  | succ budget ih =>
      cases hs : m.program.statement? m.pc with
      | none => simp [run_past_end hs] at spent
      | some s =>
          rcases hstep : m.step s with ⟨event, next⟩
          cases event with
          | none =>
              rw [run_silent hs hstep] at spent ⊢
              exact ih (ready.step hstep) spent
          | some event =>
              rw [run_event hs hstep] at spent
              exact absurd spent (step_event_ne_running hstep)

/-- A machine that is not ready gives the same answer under every budget, and never that its budget is used
    up. -/
theorem execute_of_not_ready {m : Machine} (notReady : ¬ m.IsReady) (budget other : Nat) :
    m.execute budget = m.execute other ∧ (m.execute budget).1 ≠ .running := by
  unfold execute
  split
  · exact ⟨rfl, by simp⟩
  · rename_i noPending
    split
    · exact ⟨rfl, by simp⟩
    · refine ⟨rfl, ?_⟩
      split <;> simp
    · rename_i running
      exact absurd ⟨noPending, running⟩ notReady

/-- Going on after a used-up budget is the same as having had the larger budget. Every other answer comes
    before the larger budget makes a difference. -/
theorem execute_add (m : Machine) (first second : Nat) :
    m.execute (first + second) =
      if (m.execute first).1 = .running then (m.execute first).2.execute second
      else m.execute first := by
  by_cases ready : m.IsReady
  · rw [ready.execute_eq_run, ready.execute_eq_run, run_add]
    split
    · rename_i spent
      rw [(run_ready ready spent).execute_eq_run]
    · rfl
  · obtain ⟨same, notSpent⟩ := execute_of_not_ready ready first (first + second)
    rw [if_neg notSpent, same]

/-- With no budget at all a machine that says so has not moved. -/
theorem execute_zero_running {m : Machine} (spent : (m.execute 0).1 = .running) :
    (m.execute 0).2 = m := by
  by_cases ready : m.IsReady
  · rw [ready.execute_eq_run]
    rfl
  · exact absurd spent (execute_of_not_ready ready 0 0).2

end Machine

/-! ### A caller who answers inputs -/

/-- A machine together with the answers that its caller still has to give. -/
structure Dialogue where
  machine : Machine
  answers : List String

namespace Dialogue

/-- Gives the next answer, if there is one left. -/
def answer (d : Dialogue) : Dialogue :=
  match d.answers with
  | [] => d
  | text :: rest => ⟨(d.machine.enter text).2, rest⟩

/-- Lets the machine go on within a budget and answers it if it asks. A used-up budget is no event for the
    caller. -/
def turn (d : Dialogue) (budget : Nat) : Option Event × Dialogue :=
  match d.machine.execute budget with
  | (.running, next) => (none, { d with machine := next })
  | (.input prompt, next) => (some (.input prompt), answer { d with machine := next })
  | (event, next) => (some event, { d with machine := next })

/-- The events that a caller sees when it hands out the budgets of a schedule one after the other. -/
def signals (d : Dialogue) : List Nat → List Event
  | [] => []
  | budget :: rest => (d.turn budget).1.toList ++ signals (d.turn budget).2 rest

/-- What is left of a dialogue after a schedule. -/
def after (d : Dialogue) : List Nat → Dialogue
  | [] => d
  | budget :: rest => after (d.turn budget).2 rest

theorem signals_append (d : Dialogue) (schedule more : List Nat) :
    d.signals (schedule ++ more) = d.signals schedule ++ (d.after schedule).signals more := by
  induction schedule generalizing d with
  | nil => rfl
  | cons budget rest ih => simp only [List.cons_append, signals, after, ih, List.append_assoc]

/-- A turn depends on its budget only through the machine's answer. -/
theorem turn_congr {d : Dialogue} {budget other : Nat}
    (same : d.machine.execute budget = d.machine.execute other) : d.turn budget = d.turn other := by
  unfold turn
  rw [same]

/-- A turn without an event: the budget was used up, and only the machine has changed. -/
theorem turn_of_running {d : Dialogue} {budget : Nat}
    (spent : (d.machine.execute budget).1 = .running) :
    d.turn budget = (none, { d with machine := (d.machine.execute budget).2 }) := by
  unfold turn
  rcases heq : d.machine.execute budget with ⟨event, next⟩
  rw [heq] at spent
  cases spent
  rfl

/-- Two turns of which the first uses up its budget are one turn. -/
theorem turn_add (d : Dialogue) (first second : Nat) :
    d.turn (first + second) =
      if (d.machine.execute first).1 = .running then (d.turn first).2.turn second
      else d.turn first := by
  have cut := d.machine.execute_add first second
  split
  · rename_i spent
    rw [if_pos spent] at cut
    rw [turn_of_running spent]
    unfold turn
    rw [cut]
  · rename_i notSpent
    rw [if_neg notSpent] at cut
    exact turn_congr cut

/-! ### Every schedule is a schedule of single statements -/

/-- One budget amounts to some number of turns of one statement each. -/
theorem turn_eq_units (d : Dialogue) (budget : Nat) :
    ∃ count, ∀ rest, d.signals (budget :: rest) = d.signals (List.replicate count 1 ++ rest) := by
  induction budget generalizing d with
  | zero =>
      by_cases spent : (d.machine.execute 0).1 = .running
      · refine ⟨0, fun rest => ?_⟩
        simp [signals, turn_of_running spent, Machine.execute_zero_running spent]
      · have same : d.turn (0 + 1) = d.turn 0 := by rw [turn_add, if_neg spent]
        refine ⟨1, fun rest => ?_⟩
        simp only [List.replicate_one, List.singleton_append, signals]
        rw [← same]
  | succ budget ih =>
      rw [Nat.add_comm]
      by_cases spent : (d.machine.execute 1).1 = .running
      · obtain ⟨count, units⟩ := ih (d.turn 1).2
        have cut : d.turn (1 + budget) = (d.turn 1).2.turn budget := by
          rw [turn_add, if_pos spent]
        refine ⟨count + 1, fun rest => ?_⟩
        have silent : (d.turn 1).1 = none := by rw [turn_of_running spent]
        calc
          d.signals ((1 + budget) :: rest) = (d.turn 1).2.signals (budget :: rest) := by
            simp only [signals, cut]
          _ = (d.turn 1).2.signals (List.replicate count 1 ++ rest) := units rest
          _ = d.signals (List.replicate (count + 1) 1 ++ rest) := by
            simp [List.replicate_succ, signals, silent]
      · have same : d.turn (1 + budget) = d.turn 1 := by rw [turn_add, if_neg spent]
        refine ⟨1, fun rest => ?_⟩
        simp only [List.replicate_one, List.singleton_append, signals, same]

/-- A whole schedule amounts to some number of turns of one statement each. -/
theorem signals_eq_units (d : Dialogue) (schedule : List Nat) :
    ∃ count, d.signals schedule = d.signals (List.replicate count 1) := by
  induction schedule generalizing d with
  | nil => exact ⟨0, rfl⟩
  | cons budget rest ih =>
      obtain ⟨first, units⟩ := turn_eq_units d budget
      obtain ⟨others, more⟩ := ih (d.after (List.replicate first 1))
      refine ⟨first + others, ?_⟩
      rw [units, signals_append, more, ← signals_append, List.replicate_append_replicate]

/-- More turns of one statement each only add events at the end. -/
theorem signals_units_mono (d : Dialogue) {count more : Nat} (h : count ≤ more) :
    d.signals (List.replicate count 1) <+: d.signals (List.replicate more 1) := by
  obtain ⟨extra, rfl⟩ := Nat.exists_eq_add_of_le h
  rw [← List.replicate_append_replicate, signals_append]
  exact List.prefix_append _ _

/-- Budgets change nothing about a run. A machine that goes on under a budget answers, and ends up, as it
    would under two budgets that add up to it. So under any two schedules a caller who answers inputs from
    the same list sees the same events as far as both schedules go. -/
theorem budgets_change_nothing :
    (∀ (m : Machine) (first second : Nat),
      m.execute (first + second) =
        if (m.execute first).1 = .running then (m.execute first).2.execute second
        else m.execute first) ∧
    ∀ (d : Dialogue) (schedule other : List Nat),
      d.signals schedule <+: d.signals other ∨ d.signals other <+: d.signals schedule := by
  refine ⟨Machine.execute_add, fun d schedule other => ?_⟩
  obtain ⟨count, units⟩ := signals_eq_units d schedule
  obtain ⟨more, otherUnits⟩ := signals_eq_units d other
  rw [units, otherUnits]
  rcases Nat.le_total count more with le | le
  · exact Or.inl (signals_units_mono d le)
  · exact Or.inr (signals_units_mono d le)

end Dialogue

end Plotline

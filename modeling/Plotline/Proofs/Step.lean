/-
Module: Plotline.Proofs.Step
Layer: Proofs
Purpose: What one statement does to a machine and what one pass of the loop does with it. A pass finds no
  statement, or carries one out that gives an event, or carries one out in silence and goes on; the three
  equations for `run` say so, and no later proof unfolds the loop. A silent statement leaves the state and
  the pending reports alone, and no statement claims that a budget is used up.
Main exports: Machine.step_cases, Machine.step_none, Machine.step_goto, Machine.run_past_end,
  Machine.run_event, Machine.run_silent, Machine.IsReady, Machine.execute_of_pending, Machine.execute_of_stopped,
  Machine.execute_of_waiting, Machine.execute_not_ready_eq, Machine.execute_not_ready_event,
  Machine.call_program
-/
import Plotline.Machine
import Plotline.Proofs.Outcome

namespace Plotline

namespace Machine

/-! ### One statement -/

/-- A statement is planned on the machine as it stands. Its action is then carried out after moving on, or
    the report ends the program. -/
theorem step_cases {m next : Machine} {s : Statement} {event : Option Event}
    (h : m.step s = (event, next)) :
    (∃ action generator, m.planned s.command = (.ok action, generator) ∧
      carryOut { m.advance with generator } action = (event, next)) ∨
    ∃ problem generator, m.planned s.command = (.error problem, generator) ∧
      event = some (.errors [problem.inLabel s.label]) ∧
      next = abandon { m.advance with generator } := by
  unfold step at h
  split at h
  · rename_i action generator planned
    exact Or.inl ⟨action, generator, planned, h⟩
  · rename_i problem generator planned
    simp only [Prod.mk.injEq] at h
    exact Or.inr ⟨problem, generator, planned, h.1.symm, h.2.symm⟩

/-- An action without an event keeps the state and the pending reports. -/
theorem carryOut_none {m next : Machine} {action : Action} (h : m.carryOut action = (none, next)) :
    next.state = m.state ∧ next.pending = m.pending := by
  cases action <;> simp [carryOut] at h <;> subst h <;> exact ⟨rfl, rfl⟩

/-- No action reports a used-up budget. -/
theorem carryOut_event_ne_running {m next : Machine} {action : Action} {event : Event}
    (h : m.carryOut action = (some event, next)) : event ≠ .running := by
  cases action <;> simp [carryOut] at h <;> rw [← h.1] <;> simp

theorem carryOut_program (m : Machine) (action : Action) :
    (m.carryOut action).2.program = m.program := by
  cases action <;> rfl

/-- The events of actions are not reports. -/
theorem carryOut_event_ne_errors {m next : Machine} {action : Action} {problems : List Diagnostic}
    (h : m.carryOut action = (some (.errors problems), next)) : False := by
  cases action <;> simp [carryOut] at h

/-- A statement without an event keeps the state and the pending reports. -/
theorem step_none {m next : Machine} {s : Statement} (h : m.step s = (none, next)) :
    next.state = m.state ∧ next.pending = m.pending := by
  rcases step_cases h with ⟨action, generator, _, carried⟩ | ⟨_, _, _, reported, _⟩
  · obtain ⟨hstate, hpending⟩ := carryOut_none carried
    exact ⟨hstate, hpending⟩
  · simp at reported

/-- No statement reports a used-up budget. -/
theorem step_event_ne_running {m next : Machine} {s : Statement} {event : Event}
    (h : m.step s = (some event, next)) : event ≠ .running := by
  rcases step_cases h with ⟨action, generator, _, carried⟩ | ⟨_, _, _, reported, _⟩
  · exact carryOut_event_ne_running carried
  · rw [Option.some.inj reported]
    simp

theorem planned_goto (m : Machine) (target : Label) :
    m.planned (.goto target) = ((m.program.addressOf target).map .jump, m.generator) := by
  simp only [planned, Command.plan, Work.runFrom_bind, Work.runFrom_check]
  cases m.program.addressOf target <;> rfl

/-- A jump whose label is found goes there. -/
theorem step_goto {m : Machine} {label target : Label} {address : Nat}
    (found : m.program.addressOf target = .ok address) :
    m.step ⟨label, .goto target⟩ = (none, { m.advance with pc := address }) := by
  rw [step, planned_goto, found]
  rfl

/-! ### One pass of the loop -/

/-- Beyond the last statement the program stops. -/
theorem run_past_end {m : Machine} (h : m.program.statement? m.pc = none) (budget : Nat) :
    run (budget + 1) m = (.stopped, { m with state := .stopped }) := by
  simp only [run, h]

/-- An event ends the run. -/
theorem run_event {m next : Machine} {s : Statement} {event : Event}
    (h : m.program.statement? m.pc = some s) (hstep : m.step s = (some event, next)) (budget : Nat) :
    run (budget + 1) m = (event, next) := by
  simp only [run, h, hstep]

/-- A silent statement uses up one unit of the budget, and the run goes on. -/
theorem run_silent {m next : Machine} {s : Statement}
    (h : m.program.statement? m.pc = some s) (hstep : m.step s = (none, next)) (budget : Nat) :
    run (budget + 1) m = run budget next := by
  simp only [run, h, hstep]

/-- A machine whose next answer comes from carrying out statements. -/
def IsReady (m : Machine) : Prop :=
  m.pending = [] ∧ m.state = .running

/-- A silent statement leaves a ready machine ready. -/
theorem IsReady.step {m next : Machine} {s : Statement} (ready : m.IsReady)
    (h : m.step s = (none, next)) : next.IsReady := by
  obtain ⟨hstate, hpending⟩ := step_none h
  exact ⟨hpending.trans ready.1, hstate.trans ready.2⟩

theorem IsReady.execute_eq_run {m : Machine} (ready : m.IsReady) (budget : Nat) :
    m.execute budget = m.run budget := by
  unfold execute
  rw [ready.1, ready.2]

/-- Pending reports are handed out before anything else is done. -/
theorem execute_of_pending {m : Machine} (some : m.pending ≠ []) (budget : Nat) :
    m.execute budget = (.errors m.pending, { m with pending := [] }) := by
  unfold execute
  split
  · rfl
  · rename_i nothing
    exact absurd nothing some

theorem execute_of_stopped {m : Machine} (nothing : m.pending = []) (stopped : m.state = .stopped)
    (budget : Nat) : m.execute budget = (.stopped, m) := by
  unfold execute
  rw [nothing, stopped]

/-- A machine that waits asks again, and once says so if an answer was refused. -/
theorem execute_of_waiting {m : Machine} {name : String} (nothing : m.pending = [])
    (waiting : m.state = .waiting name) (budget : Nat) :
    m.execute budget =
      if m.redo then (.print redoText, { m with redo := false }) else (.input prompt, m) := by
  unfold execute
  rw [nothing, waiting]

/-- A machine that is not ready only hands out what is pending, or forgets that an answer was refused. -/
theorem execute_not_ready_eq {m : Machine} (notReady : ¬ m.IsReady) (budget : Nat) :
    ∃ redo, (m.execute budget).2 = { m with pending := [], redo } := by
  unfold execute
  split
  · exact ⟨m.redo, rfl⟩
  · rename_i nothing
    have same : ∀ redo, { m with redo } = { m with pending := [], redo } := by
      rw [nothing]
      exact fun _ => rfl
    split
    · exact ⟨m.redo, same m.redo⟩
    · split
      · exact ⟨false, same false⟩
      · exact ⟨m.redo, same m.redo⟩
    · rename_i running
      exact absurd ⟨nothing, running⟩ notReady

/-- A machine that is not ready hands out what is pending, or has stopped, or waits for an answer. -/
theorem execute_not_ready_event {m : Machine} (notReady : ¬ m.IsReady) (budget : Nat) :
    (m.pending ≠ [] ∧ (m.execute budget).1 = .errors m.pending) ∨
    (m.pending = [] ∧ ((m.execute budget).1 = .stopped ∨ (m.execute budget).1 = .print redoText ∨
      (m.execute budget).1 = .input prompt)) := by
  by_cases nothing : m.pending = []
  · refine Or.inr ⟨nothing, ?_⟩
    cases state : m.state with
    | stopped =>
        rw [execute_of_stopped nothing state]
        exact Or.inl rfl
    | waiting name =>
        rw [execute_of_waiting nothing state]
        split
        · exact Or.inr (Or.inl rfl)
        · exact Or.inr (Or.inr rfl)
    | running => exact absurd ⟨nothing, state⟩ notReady
  · rw [execute_of_pending nothing]
    exact Or.inl ⟨nothing, rfl⟩

/-! ### Waiting for an answer -/

/-- A statement shows the prompt exactly if it makes the machine wait. -/
theorem step_waits {m next : Machine} {s : Statement} {event : Option Event} (running : m.state = .running)
    (h : m.step s = (event, next)) :
    (event = some (.input prompt) ∧ ∃ name, next.state = .waiting name) ∨
      (∀ text, event ≠ some (.input text)) ∧ ∀ name, next.state ≠ .waiting name := by
  rcases step_cases h with ⟨action, generator, _, carried⟩ | ⟨_, _, _, rfl, rfl⟩
  · cases action with
    | ask name =>
        cases carried
        exact Or.inl ⟨rfl, name, rfl⟩
    | _ =>
        cases carried
        simp [advance, running]
  · simp [abandon]

theorem run_waits (budget : Nat) {m : Machine} (ready : m.IsReady) :
    ((m.run budget).1 = .input prompt ∧ ∃ name, (m.run budget).2.state = .waiting name) ∨
      (∀ text, (m.run budget).1 ≠ .input text) ∧ ∀ name, (m.run budget).2.state ≠ .waiting name := by
  induction budget generalizing m with
  | zero => simp [run, ready.2]
  | succ budget ih =>
      cases found : m.program.statement? m.pc with
      | none => simp [run_past_end found]
      | some s =>
          rcases hstep : m.step s with ⟨event, next⟩
          cases event with
          | none =>
              rw [run_silent found hstep]
              exact ih (ready.step hstep)
          | some event =>
              rw [run_event found hstep]
              simpa using step_waits ready.2 hstep

/-- A machine that does not wait shows the prompt exactly if it waits afterwards. -/
theorem execute_waits {m : Machine} (budget : Nat) (notWaiting : ∀ name, m.state ≠ .waiting name) :
    ((m.execute budget).1 = .input prompt ∧ ∃ name, (m.execute budget).2.state = .waiting name) ∨
      (∀ text, (m.execute budget).1 ≠ .input text) ∧
        ∀ name, (m.execute budget).2.state ≠ .waiting name := by
  by_cases nothing : m.pending = []
  · cases state : m.state with
    | stopped => simp [execute_of_stopped nothing state, state]
    | waiting name => exact absurd state (notWaiting name)
    | running =>
        have ready : m.IsReady := ⟨nothing, state⟩
        rw [ready.execute_eq_run]
        exact run_waits budget ready
  · simp [execute_of_pending nothing, notWaiting]

/-! ### Only loading changes the program -/

theorem step_program (m : Machine) (s : Statement) : (m.step s).2.program = m.program := by
  rcases hstep : m.step s with ⟨event, next⟩
  rcases step_cases hstep with ⟨action, generator, _, carried⟩ | ⟨_, _, _, _, rfl⟩
  · have kept := carryOut_program { m.advance with generator } action
    rw [carried] at kept
    exact kept
  · rfl

theorem run_program (budget : Nat) (m : Machine) : (m.run budget).2.program = m.program := by
  induction budget generalizing m with
  | zero => rfl
  | succ budget ih =>
      cases found : m.program.statement? m.pc with
      | none => rw [run_past_end found]
      | some s =>
          have kept := step_program m s
          rcases hstep : m.step s with ⟨event, next⟩
          rw [hstep] at kept
          cases event with
          | some event =>
              rw [run_event found hstep]
              exact kept
          | none =>
              rw [run_silent found hstep]
              exact (ih next).trans kept

theorem execute_program (m : Machine) (budget : Nat) : (m.execute budget).2.program = m.program := by
  by_cases ready : m.IsReady
  · rw [ready.execute_eq_run]
    exact run_program budget m
  · obtain ⟨redo, same⟩ := execute_not_ready_eq ready budget
    rw [same]

theorem enter_program (m : Machine) (text : String) : (m.enter text).2.program = m.program := by
  unfold enter
  split
  · split
    · rfl
    · split
      · rfl
      · rfl
  · rfl

theorem call_program (m : Machine) (c : Call) (sameProgram : ∀ listing, c ≠ .load listing) :
    (m.call c).2.program = m.program := by
  cases c with
  | load listing => exact absurd rfl (sameProgram listing)
  | execute budget => exact execute_program m budget
  | enter text => exact enter_program m text
  | interrupt =>
      simp only [call, interrupt]
      split
      · rfl
      · rfl
  | fail problem => rfl

end Machine

end Plotline

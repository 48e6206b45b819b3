/-
Module: Plotline.Proofs.Run
Layer: Proofs
Purpose: The statements that a machine carries out while it is called. A visit is a statement together with
  the machine that is about to carry it out; the visits of a run are those of its calls in order. A change of
  a machine that no statement can see is carried along through a run (`Machine.IsUnseen.run`). `HoldsWhile`
  is the shape of a property that every visit has as long as the visits before it were well behaved.
Main exports: Visit, Visit.target?, Machine.visits, Machine.after, Machine.replies, Machine.IsUnseen,
  Machine.IsUnseen.run, HoldsWhile
-/
import Plotline.Proofs.Step

namespace Plotline

/-- A statement that a machine is about to carry out. -/
structure Visit where
  machine : Machine
  statement : Statement

namespace Visit

/-- The address that the visited statement jumps to, if it takes a jump. -/
def target? (v : Visit) : Option Nat :=
  match (v.machine.planned v.statement.command).1 with
  | .ok (.jump address) => some address
  | _ => none

/-- The event of the visited statement, if it gives one. -/
def event? (v : Visit) : Option Event :=
  (v.machine.step v.statement).1

end Visit

namespace Machine

/-- The visits of a run within a budget. -/
def runVisits : Nat → Machine → List Visit
  | 0, _ => []
  | budget + 1, m =>
      match m.program.statement? m.pc with
      | none => []
      | some s =>
          ⟨m, s⟩ ::
            match m.step s with
            | (some _, _) => []
            | (none, next) => runVisits budget next

/-- The visits of a machine that goes on within a budget. -/
def executeVisits (m : Machine) (budget : Nat) : List Visit :=
  if m.pending.isEmpty && m.state == .running then m.runVisits budget else []

/-- The visits of a call. Only going on carries statements out. -/
def callVisits (m : Machine) : Call → List Visit
  | .execute budget => m.executeVisits budget
  | _ => []

/-- The machine after some calls. -/
def after (m : Machine) : List Call → Machine
  | [] => m
  | c :: rest => (m.call c).2.after rest

/-- The replies to some calls, in order. -/
def replies (m : Machine) : List Call → List Reply
  | [] => []
  | c :: rest => (m.call c).1 :: (m.call c).2.replies rest

/-- The visits of some calls, in order. -/
def visits (m : Machine) : List Call → List Visit
  | [] => []
  | c :: rest => m.callVisits c ++ (m.call c).2.visits rest

theorem after_append (m : Machine) (calls more : List Call) :
    m.after (calls ++ more) = (m.after calls).after more := by
  induction calls generalizing m with
  | nil => rfl
  | cons c rest ih => exact ih (m.call c).2

theorem replies_append (m : Machine) (calls more : List Call) :
    m.replies (calls ++ more) = m.replies calls ++ (m.after calls).replies more := by
  induction calls generalizing m with
  | nil => rfl
  | cons c rest ih => exact congrArg ((m.call c).1 :: ·) (ih (m.call c).2)

theorem visits_append (m : Machine) (calls more : List Call) :
    m.visits (calls ++ more) = m.visits calls ++ (m.after calls).visits more := by
  induction calls generalizing m with
  | nil => rfl
  | cons c rest ih =>
      rw [List.cons_append, visits, ih, visits, List.append_assoc]
      rfl

/-- Of calls that load nothing neither the first nor any other loads. -/
theorem loadsNothing_cons {c : Call} {rest : List Call} (sameProgram : ∀ listing, .load listing ∉ c :: rest) :
    (∀ listing, c ≠ .load listing) ∧ ∀ listing, .load listing ∉ rest := by
  constructor
  · rintro listing rfl
    exact sameProgram listing List.mem_cons_self
  · intro listing mem
    exact sameProgram listing (List.mem_cons_of_mem c mem)

/-- Calls that load nothing keep the program. -/
theorem after_program (m : Machine) (calls : List Call) (sameProgram : ∀ listing, .load listing ∉ calls) :
    (m.after calls).program = m.program := by
  induction calls generalizing m with
  | nil => rfl
  | cons c rest ih =>
      obtain ⟨notLoad, others⟩ := loadsNothing_cons sameProgram
      exact (ih (m.call c).2 others).trans (call_program m c notLoad)

/-! ### One pass of the loop -/

theorem runVisits_past_end {m : Machine} (h : m.program.statement? m.pc = none) (budget : Nat) :
    runVisits (budget + 1) m = [] := by
  simp only [runVisits, h]

theorem runVisits_event {m next : Machine} {s : Statement} {event : Event}
    (h : m.program.statement? m.pc = some s) (hstep : m.step s = (some event, next)) (budget : Nat) :
    runVisits (budget + 1) m = [⟨m, s⟩] := by
  simp only [runVisits, h, hstep]

theorem runVisits_silent {m next : Machine} {s : Statement}
    (h : m.program.statement? m.pc = some s) (hstep : m.step s = (none, next)) (budget : Nat) :
    runVisits (budget + 1) m = ⟨m, s⟩ :: runVisits budget next := by
  simp only [runVisits, h, hstep]

theorem IsReady.executeVisits_eq {m : Machine} (ready : m.IsReady) (budget : Nat) :
    m.executeVisits budget = m.runVisits budget := by
  unfold executeVisits
  rw [ready.1, ready.2]
  rfl

theorem executeVisits_of_not_ready {m : Machine} (notReady : ¬ m.IsReady) (budget : Nat) :
    m.executeVisits budget = [] := by
  unfold executeVisits
  rw [if_neg]
  intro h
  simp only [Bool.and_eq_true, List.isEmpty_iff, beq_iff_eq] at h
  exact notReady h

/-! ### Changes that a run does not see -/

/-- A change of machines that no statement of a program can see, and that every statement leaves in place. -/
structure IsUnseen (change : Machine → Machine) (p : Program) : Prop where
  program : ∀ m, (change m).program = m.program
  pc : ∀ m, (change m).pc = m.pc
  stop : ∀ m, { change m with state := .stopped } = change { m with state := .stopped }
  step : ∀ (m : Machine) {address : Nat} {s : Statement}, p.statement? address = some s →
    (change m).step s = ((m.step s).1, change (m.step s).2)

/-- A run of the changed machine visits the same statements and ends with the same event; the change is still
    in place at every visit and at the end. -/
theorem IsUnseen.run {change : Machine → Machine} {m : Machine} (unseen : IsUnseen change m.program)
    (budget : Nat) :
    (change m).run budget = ((m.run budget).1, change (m.run budget).2) ∧
      (change m).runVisits budget = (m.runVisits budget).map fun v => ⟨change v.machine, v.statement⟩ := by
  induction budget generalizing m with
  | zero => exact ⟨rfl, rfl⟩
  | succ budget ih =>
      have same : (change m).program.statement? (change m).pc = m.program.statement? m.pc := by
        rw [unseen.program, unseen.pc]
      cases found : m.program.statement? m.pc with
      | none =>
          rw [found] at same
          rw [run_past_end found, run_past_end same, runVisits_past_end found, runVisits_past_end same,
            unseen.stop]
          exact ⟨rfl, rfl⟩
      | some s =>
          rw [found] at same
          have moved := unseen.step m found
          have kept := step_program m s
          rcases hstep : m.step s with ⟨event, next⟩
          rw [hstep] at moved kept
          cases event with
          | some event =>
              rw [run_event found hstep, run_event same moved, runVisits_event found hstep,
                runVisits_event same moved]
              exact ⟨rfl, rfl⟩
          | none =>
              obtain ⟨sameRun, sameVisits⟩ := ih (m := next) (by rwa [show next.program = m.program from kept])
              rw [run_silent found hstep, run_silent same moved, runVisits_silent found hstep,
                runVisits_silent same moved, sameVisits]
              exact ⟨sameRun, rfl⟩

end Machine

/-! ### Properties that hold while all goes well -/

/-- Every element has a property as long as the elements before it are good. -/
def HoldsWhile {α : Type} (good property : α → Prop) : List α → Prop
  | [] => True
  | a :: rest => property a ∧ (good a → HoldsWhile good property rest)

namespace HoldsWhile

variable {α : Type} {good property : α → Prop}

theorem append {first second : List α} (h : HoldsWhile good property first)
    (more : (∀ a ∈ first, good a) → HoldsWhile good property second) :
    HoldsWhile good property (first ++ second) := by
  induction first with
  | nil => exact more (by simp)
  | cons a rest ih =>
      refine ⟨h.1, fun goodHead => ih (h.2 goodHead) fun goodRest => more ?_⟩
      intro b mem
      rcases List.mem_cons.1 mem with rfl | mem
      · exact goodHead
      · exact goodRest b mem

theorem of_split {before rest : List α} {a : α} (h : HoldsWhile good property (before ++ a :: rest))
    (allGood : ∀ b ∈ before, good b) : property a := by
  induction before with
  | nil => exact h.1
  | cons b others ih =>
      have goodHead : good b := allGood b (by simp)
      exact ih (h.2 goodHead) fun c mem => allGood c (by simp [mem])

end HoldsWhile

end Plotline

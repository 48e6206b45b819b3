/-
Module: Plotline.Proofs.History
Layer: Proofs
Purpose: Properties of a machine that hold whatever its caller does. Such a property may speak of the visits
  since a program was last loaded. It is kept (`Machine.IsKept`) if loading establishes it and if neither a
  statement, the end of the program, a report, the handing out of reports nor an answer breaks it; then it
  holds after any calls, and of every machine that is about to carry out a statement on the way.
Main exports: Machine.visitsSinceLoad, Machine.IsKept, Machine.IsKept.run, Machine.IsKept.visited,
  Machine.IsKept.call, Machine.IsKept.visits, Machine.IsKept.calls
-/
import Plotline.Proofs.Run

namespace Plotline

namespace Machine

/-- The visits since a program was last loaded, after some calls, when `ran` were those before the calls. -/
def visitsSinceLoad (ran : List Visit) (m : Machine) : List Call → List Visit
  | [] => ran
  | .load listing :: rest => visitsSinceLoad [] (m.load listing) rest
  | c :: rest => visitsSinceLoad (ran ++ m.callVisits c) (m.call c).2 rest

/-- A property of a machine and the visits since its program was loaded, established by loading and broken
    by nothing else. -/
structure IsKept (P : List Visit → Machine → Prop) : Prop where
  load : ∀ (m : Machine) (listing : Listing), P [] (m.load listing)
  step : ∀ {ran : List Visit} {m : Machine} {s : Statement}, P ran m → m.IsReady →
    m.program.statement? m.pc = some s → P (ran ++ [⟨m, s⟩]) (m.step s).2
  stop : ∀ {ran : List Visit} {m : Machine}, P ran m → m.IsReady → P ran { m with state := .stopped }
  fail : ∀ {ran : List Visit} {m : Machine} (problem : Diagnostic), P ran m → P ran (m.fail problem)
  quiet : ∀ {ran : List Visit} {m : Machine} (redo : Bool), P ran m →
    P ran { m with pending := [], redo }
  enter : ∀ {ran : List Visit} {m : Machine} (text : String), P ran m → P ran (m.enter text).2

namespace IsKept

variable {P : List Visit → Machine → Prop} {ran : List Visit} {m : Machine}

/-- A run within a budget keeps the property, with the visits of the run added. -/
theorem run (kept : IsKept P) (budget : Nat) (holds : P ran m) (ready : m.IsReady) :
    P (ran ++ m.runVisits budget) (m.run budget).2 := by
  induction budget generalizing ran m with
  | zero => simpa [runVisits, Machine.run] using holds
  | succ budget ih =>
      cases found : m.program.statement? m.pc with
      | none =>
          rw [runVisits_past_end found, run_past_end found, List.append_nil]
          exact kept.stop holds ready
      | some s =>
          have moved := kept.step holds ready found
          rcases hstep : m.step s with ⟨event, after⟩
          rw [hstep] at moved
          cases event with
          | some event =>
              rw [runVisits_event found hstep, run_event found hstep]
              exact moved
          | none =>
              rw [runVisits_silent found hstep, run_silent found hstep]
              have ran_on := ih moved (ready.step hstep)
              rw [List.append_assoc] at ran_on
              exact ran_on

/-- Each visit of a run finds the property, with the visits before it added. -/
theorem visited (kept : IsKept P) (ran : List Visit) (budget : Nat) (holds : P ran m) (ready : m.IsReady)
    {before rest : List Visit} {v : Visit} (split : m.runVisits budget = before ++ v :: rest) :
    P (ran ++ before) v.machine := by
  induction budget generalizing ran m before with
  | zero => simp [runVisits] at split
  | succ budget ih =>
      cases found : m.program.statement? m.pc with
      | none => simp [runVisits_past_end found] at split
      | some s =>
          have moved := kept.step holds ready found
          rcases hstep : m.step s with ⟨event, after⟩
          rw [hstep] at moved
          cases before with
          | nil =>
              have first : v = ⟨m, s⟩ := by
                cases event with
                | some event => simp_all [runVisits_event found hstep]
                | none => simp_all [runVisits_silent found hstep]
              rw [first, List.append_nil]
              exact holds
          | cons u before =>
              cases event with
              | some event => simp [runVisits_event found hstep] at split
              | none =>
                  rw [runVisits_silent found hstep, List.cons_append] at split
                  injection split with first split
                  subst first
                  have later := ih _ moved (ready.step hstep) split
                  rw [List.append_assoc] at later
                  exact later

/-- A call other than loading keeps the property, with the visits of the call added. -/
theorem call (kept : IsKept P) (holds : P ran m) (c : Call) (sameProgram : ∀ listing, c ≠ .load listing) :
    P (ran ++ m.callVisits c) (m.call c).2 := by
  cases c with
  | load listing => exact absurd rfl (sameProgram listing)
  | execute budget =>
      simp only [callVisits, Machine.call]
      by_cases ready : m.IsReady
      · rw [ready.executeVisits_eq, ready.execute_eq_run]
        exact kept.run budget holds ready
      · obtain ⟨redo, same⟩ := execute_not_ready_eq ready budget
        rw [executeVisits_of_not_ready ready, List.append_nil, same]
        exact kept.quiet redo holds
  | enter text => simpa [callVisits, Machine.call] using kept.enter text holds
  | interrupt =>
      simp only [callVisits, Machine.call, Machine.interrupt, List.append_nil]
      split
      · exact kept.fail _ holds
      · exact holds
  | fail problem => simpa [callVisits, Machine.call] using kept.fail problem holds

/-- Calls that load nothing keep the property, with all their visits added. -/
theorem visits (kept : IsKept P) (calls : List Call) (sameProgram : ∀ listing, .load listing ∉ calls)
    (holds : P ran m) : P (ran ++ m.visits calls) (m.after calls) := by
  induction calls generalizing ran m with
  | nil => simpa [Machine.visits, after] using holds
  | cons c rest ih =>
      obtain ⟨notLoad, others⟩ := loadsNothing_cons sameProgram
      have later := ih others (kept.call holds c notLoad)
      rw [List.append_assoc] at later
      exact later

/-- Any calls keep the property, with the visits since a program was last loaded. -/
theorem calls (kept : IsKept P) (ran : List Visit) (calls : List Call) (holds : P ran m) :
    P (m.visitsSinceLoad ran calls) (m.after calls) := by
  induction calls generalizing ran m with
  | nil => exact holds
  | cons c rest ih =>
      cases c with
      | load listing => exact ih _ (kept.load m listing)
      | execute | enter | interrupt | fail => exact ih _ (kept.call holds _ (by simp))

end IsKept

end Machine

end Plotline

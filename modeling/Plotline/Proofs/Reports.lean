/-
Module: Plotline.Proofs.Reports
Layer: Proofs
Purpose: Every report is shown once, and a stop is final. A report arises when the caller makes one, when a
  program that has not stopped is interrupted, or when a statement fails; `Machine.incidents` lists them as
  they arise. One call hands out reports or leaves them pending, and adds those that arise at the end
  (`IsSound.call_accounts`); so over any calls what was handed out, followed by what is pending, is what was
  pending at first, followed by what arose. A machine that has stopped carries out nothing any more, hence
  at most one statement fails.
Main exports: Visit.problem?, Diagnostic.recordedAfter, Machine.incidents, Machine.run_reports,
  Machine.IsSound.call_accounts, Machine.stopped_after, Machine.reports_shown_once
-/
import Plotline.Proofs.Reached

namespace Plotline

/-- The reports that an event hands out. -/
def Event.problems : Event → List Diagnostic
  | .errors problems => problems
  | _ => []

/-- The reports that a reply hands out. -/
def Reply.problems : Reply → List Diagnostic
  | .event answer => answer.problems
  | .done | .accepted _ => []

/-- The report that the visited statement fails with, if it fails. -/
def Visit.problem? (v : Visit) : Option Diagnostic :=
  match (v.machine.planned v.statement.command).1 with
  | .ok _ => none
  | .error problem => some (problem.inLabel v.statement.label)

/-- A report as it is recorded after some visits: if it has no label, it gets that of the statement visited
    last. -/
def Diagnostic.recordedAfter (problem : Diagnostic) (ran : List Visit) : Diagnostic :=
  match ran.getLast? with
  | some v => problem.inLabel v.statement.label
  | none => problem

/-- The report that a failing statement gives has the label of the statement. -/
theorem Visit.problem?_label {v : Visit} {problem : Diagnostic} (failed : v.problem? = some problem) :
    problem.label = some v.statement.label := by
  unfold problem? at failed
  split at failed
  · cases failed
  · rename_i cause planned
    cases failed
    obtain ⟨_, raised⟩ := Command.plan_raises v.statement.command v.machine.generator cause planned
    rw [Diagnostic.label_inLabel, raised.unlabelled]
    rfl

namespace Machine

/-- The reports that arise in a call, when the visits since loading are given. -/
def incidents (ran : List Visit) (m : Machine) : Call → List Diagnostic
  | .execute budget => (m.executeVisits budget).filterMap Visit.problem?
  | .interrupt =>
      if m.isRunning then [Diagnostic.recordedAfter { code := .interrupted } ran] else []
  | .fail problem => [problem.recordedAfter ran]
  | .load _ | .enter _ => []

/-- The reports that arise in some calls, in order. -/
def incidentsOver (ran : List Visit) (m : Machine) : List Call → List Diagnostic
  | [] => []
  | c :: rest => m.incidents ran c ++ (m.call c).2.incidentsOver (ran ++ m.callVisits c) rest

/-! ### One statement, one run -/

theorem carryOut_pending (m : Machine) (action : Action) :
    (m.carryOut action).2.pending = m.pending := by
  cases action <;> rfl

/-- A statement gives its report and stops the machine, or it gives none. What is pending stays. -/
theorem step_reports {m next : Machine} {s : Statement} {event : Option Event}
    (hstep : m.step s = (event, next)) :
    next.pending = m.pending ∧
    ((Visit.problem? ⟨m, s⟩ = none ∧ ∀ problems, event ≠ some (.errors problems)) ∨
      ∃ problem, Visit.problem? ⟨m, s⟩ = some problem ∧ event = some (.errors [problem]) ∧
        next.state = .stopped) := by
  rcases step_cases hstep with ⟨action, generator, planned, carried⟩ | ⟨problem, _, planned, rfl, rfl⟩
  · refine ⟨?_, Or.inl ⟨?_, ?_⟩⟩
    · rw [show next = _ from (congrArg Prod.snd carried).symm, carryOut_pending]
      rfl
    · simp [Visit.problem?, planned]
    · rintro problems rfl
      exact carryOut_event_ne_errors carried
  · exact ⟨rfl, Or.inr ⟨_, by simp [Visit.problem?, planned], rfl, rfl⟩⟩

/-- A run gives the report of its last statement and stops the machine, or it gives none and no statement
    has failed. What is pending stays. -/
theorem run_reports (budget : Nat) (m : Machine) :
    (m.run budget).2.pending = m.pending ∧
    (((m.runVisits budget).filterMap Visit.problem? = [] ∧
        ∀ problems, (m.run budget).1 ≠ .errors problems) ∨
      ∃ problem, (m.runVisits budget).filterMap Visit.problem? = [problem] ∧
        (m.run budget).1 = .errors [problem] ∧ (m.run budget).2.state = .stopped) := by
  induction budget generalizing m with
  | zero => exact ⟨rfl, Or.inl ⟨rfl, by simp [run]⟩⟩
  | succ budget ih =>
      cases found : m.program.statement? m.pc with
      | none =>
          rw [runVisits_past_end found, run_past_end found]
          exact ⟨rfl, Or.inl ⟨rfl, by simp⟩⟩
      | some s =>
          rcases hstep : m.step s with ⟨event, next⟩
          obtain ⟨pending, reports⟩ := step_reports hstep
          cases event with
          | some event =>
              rw [runVisits_event found hstep, run_event found hstep]
              refine ⟨pending, ?_⟩
              rcases reports with ⟨well, silent⟩ | ⟨problem, failed, reported, stopped⟩
              · exact Or.inl ⟨by simp [well], fun problems same => silent problems (congrArg some same)⟩
              · exact Or.inr ⟨problem, by simp [failed], Option.some.inj reported, stopped⟩
          | none =>
              have well : Visit.problem? ⟨m, s⟩ = none := by
                rcases reports with ⟨well, _⟩ | ⟨_, _, reported, _⟩
                · exact well
                · cases reported
              rw [runVisits_silent found hstep, run_silent found hstep, List.filterMap_cons_none well]
              obtain ⟨later, rest⟩ := ih next
              exact ⟨later.trans pending, rest⟩

/-! ### One call -/

theorem execute_reports (m : Machine) (budget : Nat) :
    (m.execute budget).1.problems ++ (m.execute budget).2.pending =
      m.pending ++ (m.executeVisits budget).filterMap Visit.problem? := by
  by_cases ready : m.IsReady
  · rw [ready.execute_eq_run, ready.executeVisits_eq]
    obtain ⟨pending, ⟨well, silent⟩ | ⟨problem, failed, reported, _⟩⟩ := run_reports budget m
    · have none : (m.run budget).1.problems = [] := by
        cases event : (m.run budget).1 with
        | errors problems => exact absurd event (silent problems)
        | _ => rfl
      rw [pending, well, none, ready.1]
    · rw [pending, failed, reported, ready.1]
      rfl
  · obtain ⟨redo, same⟩ := execute_not_ready_eq ready budget
    rw [executeVisits_of_not_ready ready, same, List.filterMap_nil, List.append_nil, List.append_nil]
    rcases execute_not_ready_event ready budget with ⟨_, handedOut⟩ | ⟨nothing, stopped | refused | asked⟩
    · rw [handedOut]
      rfl
    · rw [stopped, nothing]
      rfl
    · rw [refused, nothing]
      rfl
    · rw [asked, nothing]
      rfl

namespace IsSound

variable {ran : List Visit} {m : Machine}

/-- A report made by the caller is recorded behind those that are pending. -/
theorem fail_recorded (sound : IsSound ran m) (problem : Diagnostic) :
    (m.fail problem).pending = m.pending ++ [problem.recordedAfter ran] := by
  unfold Diagnostic.recordedAfter
  cases last : ran.getLast? with
  | none =>
      have unmoved : m.last = none := by rw [sound.last, last]; rfl
      simp [Machine.fail, unmoved]
  | some v =>
      have moved : m.last = some v.machine.pc := by rw [sound.last, last]; rfl
      have found := sound.ran_mem v (List.mem_of_getLast? last)
      simp [Machine.fail, moved, found]

/-- An answer makes no report. -/
theorem enter_pending (sound : IsSound ran m) (text : String) :
    (m.enter text).2.pending = m.pending := by
  unfold Machine.enter
  split
  · rename_i name waiting
    split
    · rfl
    · rw [locate_of_not_array (sound.waiting name waiting).storable]
  · rfl

/-- What a call hands out, followed by what it leaves pending, is what was pending before, followed by what
    arises in the call. -/
theorem call_accounts (sound : IsSound ran m) (c : Call) (sameProgram : ∀ listing, c ≠ .load listing) :
    (m.call c).1.problems ++ (m.call c).2.pending = m.pending ++ m.incidents ran c := by
  cases c with
  | load listing => exact absurd rfl (sameProgram listing)
  | execute budget => exact execute_reports m budget
  | enter text =>
      simp only [Machine.call, Reply.problems, incidents, List.nil_append, List.append_nil]
      exact sound.enter_pending text
  | interrupt =>
      simp only [Machine.call, Reply.problems, Machine.interrupt, incidents, List.nil_append]
      split
      · exact sound.fail_recorded _
      · simp
  | fail problem => exact sound.fail_recorded problem

/-- The same for any number of calls. -/
theorem calls_account (calls : List Call) (sameProgram : ∀ listing, .load listing ∉ calls)
    (sound : IsSound ran m) :
    (m.replies calls).flatMap Reply.problems ++ (m.after calls).pending =
      m.pending ++ m.incidentsOver ran calls := by
  induction calls generalizing ran m with
  | nil => simp [replies, after, incidentsOver]
  | cons c rest ih =>
      obtain ⟨notLoad, others⟩ := loadsNothing_cons sameProgram
      have first := sound.call_accounts c notLoad
      have later := ih others (isKept.call sound c notLoad)
      simp only [replies, after, incidentsOver, List.flatMap_cons]
      rw [List.append_assoc, later, ← List.append_assoc, first, List.append_assoc]

end IsSound

/-- No event hands out an empty list of reports. -/
theorem execute_errors_ne_nil {m : Machine} {budget : Nat} {problems : List Diagnostic}
    (reported : (m.execute budget).1 = .errors problems) : problems ≠ [] := by
  by_cases ready : m.IsReady
  · rw [ready.execute_eq_run] at reported
    obtain ⟨_, ⟨_, silent⟩ | ⟨problem, _, same, _⟩⟩ := run_reports budget m
    · exact absurd reported (silent problems)
    · rw [reported] at same
      cases same
      simp
  · rcases execute_not_ready_event ready budget with ⟨some, handedOut⟩ | ⟨_, stopped | refused | asked⟩
    · rw [reported] at handedOut
      cases handedOut
      exact some
    · cases reported.symm.trans stopped
    · cases reported.symm.trans refused
    · cases reported.symm.trans asked

/-! ### Stopped machines -/

/-- What a machine that has stopped keeps, whatever its caller does. -/
structure StaysStopped (m next : Machine) : Prop where
  stopped : next.state = .stopped
  memory : next.memory = m.memory
  program : next.program = m.program
  pc : next.pc = m.pc

theorem execute_stopped {m : Machine} (stopped : m.state = .stopped) (budget : Nat) :
    (m.execute budget).1 = (if m.pending = [] then .stopped else .errors m.pending) := by
  split
  · rename_i nothing
    rw [execute_of_stopped nothing stopped]
  · rename_i some
    rw [execute_of_pending some]

theorem enter_stopped {m : Machine} (stopped : m.state = .stopped) (text : String) :
    m.enter text = (false, m) := by
  unfold enter
  rw [stopped]

theorem not_isReady_of_stopped {m : Machine} (stopped : m.state = .stopped) : ¬ m.IsReady := by
  intro ready
  rw [ready.2] at stopped
  cases stopped

theorem stopped_call {m : Machine} (stopped : m.state = .stopped) (c : Call)
    (sameProgram : ∀ listing, c ≠ .load listing) : StaysStopped m (m.call c).2 := by
  cases c with
  | load listing => exact absurd rfl (sameProgram listing)
  | execute budget =>
      obtain ⟨redo, same⟩ := execute_not_ready_eq (not_isReady_of_stopped stopped) budget
      simp only [call]
      rw [same]
      exact ⟨stopped, rfl, rfl, rfl⟩
  | enter text =>
      simp only [call, enter_stopped stopped text]
      exact ⟨stopped, rfl, rfl, rfl⟩
  | interrupt =>
      simp only [call, interrupt, isRunning, stopped]
      exact ⟨stopped, rfl, rfl, rfl⟩
  | fail problem => exact ⟨rfl, rfl, rfl, rfl⟩

/-- A machine that has stopped stays so under any calls, and carries out nothing. -/
theorem stopped_after {m : Machine} (stopped : m.state = .stopped) (calls : List Call)
    (sameProgram : ∀ listing, .load listing ∉ calls) :
    StaysStopped m (m.after calls) ∧ m.visits calls = [] := by
  induction calls generalizing m with
  | nil => exact ⟨⟨stopped, rfl, rfl, rfl⟩, rfl⟩
  | cons c rest ih =>
      obtain ⟨notLoad, others⟩ := loadsNothing_cons sameProgram
      have first := stopped_call stopped c notLoad
      obtain ⟨later, idle⟩ := ih first.stopped others
      have noVisits : m.callVisits c = [] := by
        cases c with
        | execute budget => exact executeVisits_of_not_ready (not_isReady_of_stopped stopped) budget
        | _ => rfl
      refine ⟨⟨later.stopped, later.memory.trans first.memory, later.program.trans first.program,
        later.pc.trans first.pc⟩, ?_⟩
      simp only [visits]
      rw [noVisits, idle]
      rfl

/-- A call in which a statement fails stops the machine, and no other statement fails in it. -/
theorem call_failures (m : Machine) (c : Call) :
    (m.callVisits c).filterMap Visit.problem? = [] ∨
      ((m.callVisits c).filterMap Visit.problem?).length = 1 ∧ (m.call c).2.state = .stopped := by
  cases c with
  | execute budget =>
      simp only [callVisits, call]
      by_cases ready : m.IsReady
      · rw [ready.executeVisits_eq, ready.execute_eq_run]
        obtain ⟨_, ⟨well, _⟩ | ⟨problem, failed, _, stopped⟩⟩ := run_reports budget m
        · exact Or.inl well
        · exact Or.inr ⟨by rw [failed]; rfl, stopped⟩
      · rw [executeVisits_of_not_ready ready]
        exact Or.inl rfl
  | _ => exact Or.inl rfl

/-- At most one statement fails until a program is loaded again. -/
theorem failures_le_one (m : Machine) (calls : List Call) (sameProgram : ∀ listing, .load listing ∉ calls) :
    ((m.visits calls).filterMap Visit.problem?).length ≤ 1 := by
  induction calls generalizing m with
  | nil => simp [visits]
  | cons c rest ih =>
      obtain ⟨_, others⟩ := loadsNothing_cons sameProgram
      simp only [visits, List.filterMap_append, List.length_append]
      rcases call_failures m c with well | ⟨once, stopped⟩
      · rw [well]
        simpa using ih (m.call c).2 others
      · rw [once, (stopped_after stopped rest others).2]
        exact Nat.le_refl 1

theorem replies_errors_ne_nil (m : Machine) (calls : List Call) {problems : List Diagnostic}
    (mem : .event (.errors problems) ∈ m.replies calls) : problems ≠ [] := by
  induction calls generalizing m with
  | nil => cases mem
  | cons c rest ih =>
      rcases List.mem_cons.1 mem with here | later
      · cases c with
        | execute budget =>
            injection here with reported
            exact execute_errors_ne_nil reported.symm
        | _ => cases here
      · exact ih (m.call c).2 later

/-- Every report is shown once, and a stop is final. Take any calls made after loading a listing. The reports
    handed out, followed by those pending at the end, are those of the listing, followed by those that arose
    in the calls, in order: each report that the caller made and each interruption of a program that had not
    stopped, under the label of the statement carried out last, and the report of a failing statement. At
    most one statement fails, and its report has its label. No event hands out an empty list of reports.
    Once the machine has stopped, no call changes that, its variables, its program or its address; it
    answers with the reports that are pending, or that it has stopped, and accepts no answer. -/
theorem reports_shown_once (m : Machine) (listing : Listing) (calls : List Call)
    (sameProgram : ∀ other, .load other ∉ calls) :
    let start := m.load listing
    (start.replies calls).flatMap Reply.problems ++ (start.after calls).pending =
      listing.errors ++ start.incidentsOver [] calls ∧
    ((start.visits calls).filterMap Visit.problem?).length ≤ 1 ∧
    (∀ v ∈ start.visits calls, ∀ problem, v.problem? = some problem →
      problem.label = some v.statement.label) ∧
    (∀ problems, .event (.errors problems) ∈ start.replies calls → problems ≠ []) ∧
    ∀ before later, calls = before ++ later → (start.after before).state = .stopped →
      (start.after calls).state = .stopped ∧
      (start.after calls).memory = (start.after before).memory ∧
      (start.after calls).program = (start.after before).program ∧
      (start.after calls).pc = (start.after before).pc ∧
      (∀ budget, ((start.after calls).execute budget).1 =
        if (start.after calls).pending = [] then .stopped else .errors (start.after calls).pending) ∧
      ∀ text, ((start.after calls).enter text).1 = false := by
  intro start
  refine ⟨?_, failures_le_one start calls sameProgram, fun v _ problem => Visit.problem?_label,
    fun problems => replies_errors_ne_nil start calls, ?_⟩
  · exact (IsSound.load m listing).calls_account calls sameProgram
  · rintro before later rfl stopped
    rw [after_append]
    obtain ⟨stays, _⟩ := stopped_after stopped later fun other mem =>
      sameProgram other (List.mem_append_right before mem)
    refine ⟨stays.stopped, stays.memory, stays.program, stays.pc, ?_, ?_⟩
    · exact execute_stopped stays.stopped
    · intro text
      rw [enter_stopped stays.stopped]

/-- A listing with a line that cannot be read and a statement that fails. -/
def flawedListing : Listing :=
  Listing.load "10 PRINT 1\n20 PRINT FOO(1)\n30 OOPS\n40 END\n"

/-- A caller who interrupts too late, and then reports something itself. -/
def lateCalls : List Call :=
  [.execute 9, .execute 9, .execute 9, .interrupt, .fail { code := .cantCreateFile }, .execute 9]

/-- The flawed listing has three reports to show: its own, that of the statement that fails, and that of the
    caller, which gets the label of this statement. The interruption comes too late. -/
theorem reports_shown_once_flawed :
    (∀ other, .load other ∉ lateCalls) ∧
    let start := (new (.constant 0)).load flawedListing
    (start.replies lateCalls).flatMap Reply.problems ++ (start.after lateCalls).pending =
      [{ code := .syntaxError, label := some "30", detail := "EXPECTED STATEMENT, FOUND 'OOPS'" },
        { code := .unsupportedFunction, label := some "20", detail := "FOO" },
        { code := .cantCreateFile, label := some "20" }] := by
  have sameProgram : ∀ other, .load other ∉ lateCalls := by simp [lateCalls]
  refine ⟨sameProgram, ?_⟩
  intro start
  rw [(reports_shown_once (new (.constant 0)) flawedListing lateCalls sameProgram).1]
  decide +kernel

end Machine

end Plotline

/-
Module: Plotline.Proofs.ExitStatus
Layer: Proofs
Purpose: The exit status of the command line program is faithful. While a session is served, what has been
  written to standard error is accounted for (`World.Served.Accounts`): it is only ever added to, and the
  session knows whether anything was. One turn keeps the account, hence any turns do, and the exit status
  reads it off. Reading a script without running it and running it report the same problems: a machine hands
  out the reports of its listing before it does anything else (`Invocation.turn_start`).
Main exports: World.Served.Accounts, Invocation.turn_accounts, Invocation.progress_accounts,
  Invocation.turn_start, Invocation.exit_status_faithful
-/
import Plotline.Disk
import Plotline.Proofs.Reports
import Plotline.Proofs.Service

namespace Plotline

/-! ### Reports of a session -/

namespace Session

/-- A session knows of the reports that it has asked to be shown. -/
theorem next_hadErrors (s : Session) :
    s.next.2.hadErrors = true ↔ s.hadErrors = true ∨ ∃ problems, s.next.1 = .report problems := by
  rcases executed : s.machine.execute budget with ⟨event, machine⟩
  cases event <;> simp [next, executed]

/-- A session never asks for nothing to be shown. -/
theorem report_ne_nil {s : Session} {problems : List Diagnostic} (reports : s.next.1 = .report problems) :
    problems ≠ [] := by
  have answered : (s.machine.execute budget).1 = .errors problems := by
    rw [next_request] at reports
    cases event : (s.machine.execute budget).1 with
    | errors others =>
        rw [event] at reports
        cases reports
        rfl
    | stopped | running | print | input | drawing | ended =>
        rw [event] at reports
        cases reports
  exact Machine.execute_errors_ne_nil answered

theorem reportText_eq_empty {problems : List Diagnostic} : reportText problems = "" ↔ problems = [] := by
  cases problems with
  | nil => simp [reportText]
  | cons problem rest => simp [reportText, reportLine]

end Session

/-! ### Standard error -/

namespace World

variable {σ : Type}

/-- Standard error has only been added to since it held `start`, and the session, or the exit status, says
    whether anything was added or had been reported before. -/
def Served.Accounts (known : Bool) (start : String) : Served σ → Prop
  | ongoing s w => ∃ written, w.errors = start ++ written ∧
      (s.hadErrors = true ↔ known = true ∨ written ≠ "")
  | exited status w => ∃ written, w.errors = start ++ written ∧ status ≤ 1 ∧
      (status = 1 ↔ known = true ∨ written ≠ "")

variable {known : Bool} {start : String} {s : Session} {w : World σ}

theorem readAnswer_accounts (accounts : (Served.ongoing s w).Accounts known start) :
    (w.readAnswer s).Accounts known start := by
  unfold readAnswer
  split
  · exact accounts
  · exact accounts
  · rename_i problem rest _
    obtain ⟨written, errors, _⟩ := accounts
    refine ⟨written ++ (problem ++ "\n"), ?_, Nat.le_refl 1, ?_⟩
    · rw [complain, errors, String.append_assoc]
    · simp

theorem finish_accounts (accounts : (Served.ongoing s w).Accounts known start) :
    (Served.exited s.status w).Accounts known start := by
  obtain ⟨written, errors, knows⟩ := accounts
  refine ⟨written, errors, ?_, ?_⟩
  · rw [Session.status]
    split <;> decide
  · rw [← knows, Session.status]
    split <;> simp_all

variable [FileSystem σ]

/-- Whether a drawing could be kept or not, the session tells of it later. -/
theorem saveDrawing_accounts (i : Invocation) (accounts : (Served.ongoing s w).Accounts known start)
    (document : String) : (saveDrawing i w s document).Accounts known start := by
  simp only [saveDrawing]
  split
  · exact accounts
  · exact accounts

/-- Only serving a report, and an answer that cannot be read, add to standard error. -/
theorem serve_accounts (i : Invocation) {request : Request}
    (silent : ∀ problems, request ≠ .report problems)
    (accounts : (Served.ongoing s w).Accounts known start) :
    (w.serve i s request).Accounts known start := by
  cases request with
  | proceed => exact accounts
  | write text => exact accounts
  | ask prompt => exact readAnswer_accounts (w := w.print prompt) accounts
  | report problems => exact absurd rfl (silent problems)
  | save document => exact saveDrawing_accounts i accounts document
  | finish => exact finish_accounts accounts

end World

namespace Invocation

open World (Served)

variable {σ : Type} [FileSystem σ] {known : Bool} {start : String}

/-- A turn keeps the account of standard error. -/
theorem turn_accounts (i : Invocation) {s : Session} {w : World σ}
    (accounts : (Served.ongoing s w).Accounts known start) : (i.turn s w).Accounts known start := by
  obtain ⟨written, errors, knows⟩ := accounts
  have later := s.next_hadErrors
  rw [knows] at later
  by_cases reports : ∃ problems, s.next.1 = .report problems
  · have informed : s.next.2.hadErrors = true := later.2 (Or.inr reports)
    obtain ⟨problems, request⟩ := reports
    have shown : Session.reportText problems ≠ "" :=
      mt Session.reportText_eq_empty.1 (Session.report_ne_nil request)
    rw [turn, request]
    refine ⟨written ++ Session.reportText problems, ?_, by simp [informed, shown]⟩
    rw [World.complain, errors, String.append_assoc]
  · have same : s.next.2.hadErrors = true ↔ known = true ∨ written ≠ "" := by
      rw [later, or_iff_left reports]
    apply World.serve_accounts
    · exact fun problems request => reports ⟨problems, request⟩
    · exact ⟨written, errors, same⟩

/-- Any turns keep the account of standard error. -/
theorem progress_accounts (i : Invocation) (turns : Nat) {s : Session} {w : World σ}
    (accounts : (Served.ongoing s w).Accounts known start) :
    (i.progress turns s w).Accounts known start := by
  induction turns generalizing s w with
  | zero => exact accounts
  | succ turns ih =>
      have moved := i.turn_accounts accounts
      cases went : i.turn s w with
      | ongoing next after =>
          rw [progress_ongoing went]
          rw [went] at moved
          exact ih moved
      | exited status after =>
          rw [progress_exited went]
          rw [went] at moved
          exact moved

/-- The exit status of a session that has been served says whether anything was written to standard error. -/
theorem serveAll_errors {i : Invocation} {turns status : Nat} {s : Session} {w after : World σ}
    (exits : i.serveAll turns s w = some (status, after)) :
    ∃ written, after.errors = w.errors ++ written ∧ status ≤ 1 ∧
      (status = 1 ↔ s.hadErrors = true ∨ written ≠ "") := by
  have accounts : (Served.ongoing s w).Accounts s.hadErrors w.errors := ⟨"", by simp, by simp⟩
  have served := i.progress_accounts turns accounts
  rw [serveAll_eq_some.1 exits] at served
  exact served

/-! ### Reading and running a script -/

/-- The first turn of a session shows the reports of its listing. -/
theorem turn_start (i : Invocation) (generator : Generator) {listing : Listing}
    (reported : listing.errors ≠ []) (w : World σ) :
    ∃ s, i.turn (.start generator listing) w =
      .ongoing s (w.complain (Session.reportText listing.errors)) ∧ s.hadErrors = true := by
  have pending : ((Machine.new generator).load listing).pending ≠ [] := reported
  have executed := Machine.execute_of_pending pending Session.budget
  refine ⟨(Session.start generator listing).next.2, ?_, ?_⟩
  · rw [turn, Session.next_request, Session.start, executed]
    rfl
  · rw [Session.next_hadErrors, Session.next_request, Session.start, executed]
    exact Or.inr ⟨_, rfl⟩

/-- A listing with reports is served with exit status 1, and its reports are shown first. -/
theorem serveAll_reports {i : Invocation} {turns status : Nat} {generator : Generator} {listing : Listing}
    {w after : World σ} (reported : listing.errors ≠ [])
    (exits : i.serveAll turns (.start generator listing) w = some (status, after)) :
    status = 1 ∧ ∃ rest, after.errors = w.errors ++ Session.reportText listing.errors ++ rest := by
  obtain ⟨s, went, informed⟩ := i.turn_start generator reported w
  cases turns with
  | zero => cases exits
  | succ turns =>
      rw [serveAll_eq_some, progress_ongoing went, ← serveAll_eq_some] at exits
      obtain ⟨rest, errors, _, tells⟩ := serveAll_errors exits
      exact ⟨tells.2 (Or.inl informed), rest, errors⟩

theorem run_unreadable {i : Invocation} {w : World σ} {problem : String}
    (unreadable : FileSystem.read w.files i.script = .error problem) (generator : Generator) (turns : Nat) :
    i.run generator turns w = some (2, w.complain (i.unreadableText problem)) := by
  simp only [run, unreadable]

theorem run_check {i : Invocation} {w : World σ} {bytes : List UInt8}
    (readable : FileSystem.read w.files i.script = .ok bytes) (check : i.checkOnly = true)
    (generator : Generator) (turns : Nat) :
    let reported := (Listing.load (Utf8.decodeLenient bytes)).errors
    i.run generator turns w =
      some (if reported.isEmpty then 0 else 1, w.complain (Session.reportText reported)) := by
  simp only [run, readable, check, if_true]

theorem run_serve {i : Invocation} {w : World σ} {bytes : List UInt8}
    (readable : FileSystem.read w.files i.script = .ok bytes) (runs : i.checkOnly = false)
    (generator : Generator) (turns : Nat) :
    i.run generator turns w =
      i.serveAll turns (.start generator (Listing.load (Utf8.decodeLenient bytes))) w := by
  simp only [run, readable, runs, Bool.false_eq_true, if_false]

/-- However an invocation ends, its exit status tells what was written to standard error and whether the
    script could be read. -/
theorem run_status {i : Invocation} {generator : Generator} {turns status : Nat} {w after : World σ}
    (exits : i.run generator turns w = some (status, after)) :
    ∃ written, after.errors = w.errors ++ written ∧ (status = 0 ↔ written = "") ∧
      (status = 2 ↔ ∃ problem, FileSystem.read w.files i.script = .error problem) := by
  cases script : FileSystem.read w.files i.script with
  | error problem =>
      rw [run_unreadable script] at exits
      cases exits
      exact ⟨i.unreadableText problem, rfl, by simp [unreadableText], by simp⟩
  | ok bytes =>
      cases check : i.checkOnly with
      | true =>
          rw [run_check script check] at exits
          cases exits
          refine ⟨_, rfl, ?_, ?_⟩
          · rw [Session.reportText_eq_empty, ← List.isEmpty_iff]
            split <;> simp_all
          · split <;> simp
      | false =>
          rw [run_serve script check] at exits
          obtain ⟨written, errors, atMost, tells⟩ := serveAll_errors exits
          simp only [Session.start, Bool.false_eq_true, false_or] at tells
          refine ⟨written, errors, ?_, ?_⟩
          · by_cases nothing : written = ""
            · have other : status ≠ 1 := fun same => tells.1 same nothing
              simp only [nothing, iff_true]
              omega
            · simp [tells.2 nothing, nothing]
          · simp only [reduceCtorEq, exists_false, iff_false]
            omega

/-- The exit status is faithful, and reading a script without running it agrees with running it. Take any
    files, whatever becomes of requests to them, any clock and any input. However an invocation ends, its
    status is 0 exactly if nothing was written to standard error, and 2 exactly if the script could not be
    read; nothing else happens then. Reading without running always ends: with 1 if the listing has reports and
    otherwise with 0, having written the reports and touched nothing else. If it ends with 1, then whoever runs
    the same script, on whatever files, to any directory and with any input, ends with 1 if at all, and the
    same text comes first on standard error. -/
theorem exit_status_faithful (i : Invocation) (w : World σ) :
    (∀ generator turns status after, i.run generator turns w = some (status, after) →
      ∃ written, after.errors = w.errors ++ written ∧ (status = 0 ↔ written = "") ∧
        (status = 2 ↔ ∃ problem, FileSystem.read w.files i.script = .error problem)) ∧
    (∀ problem, FileSystem.read w.files i.script = .error problem → ∀ generator turns,
      i.run generator turns w = some (2, w.complain (i.unreadableText problem))) ∧
    (∀ bytes, FileSystem.read w.files i.script = .ok bytes → i.checkOnly = true → ∀ generator turns,
      ∃ status after, i.run generator turns w = some (status, after) ∧ status ≤ 1 ∧
        (status = 1 ↔ (Listing.load (Utf8.decodeLenient bytes)).errors ≠ []) ∧
        after.input = w.input ∧ after.output = w.output ∧ after.files = w.files ∧ after.saves = w.saves) ∧
    ∀ generator turns checked written, i.checkOnly = true →
      i.run generator turns w = some (1, checked) → checked.errors = w.errors ++ written →
      ∀ {τ : Type} [FileSystem τ] (j : Invocation) (v : World τ) generator turns status after,
        j.checkOnly = false →
        FileSystem.read v.files j.script = FileSystem.read w.files i.script →
        j.run generator turns v = some (status, after) →
        status = 1 ∧ ∃ rest, after.errors = v.errors ++ written ++ rest := by
  refine ⟨fun _ _ _ _ => run_status, fun _ => run_unreadable, ?_, ?_⟩
  · intro bytes readable check generator turns
    refine ⟨_, _, run_check readable check generator turns, ?_, ?_, rfl, rfl, rfl, rfl⟩
    · split <;> decide
    · rw [← List.isEmpty_eq_false_iff]
      split <;> simp_all
  · intro generator turns checked written check exits wrote τ _ j v generator' turns' status after runs
      same exits'
    cases script : FileSystem.read w.files i.script with
    | error problem =>
        rw [run_unreadable script] at exits
        cases exits
    | ok bytes =>
        rw [script] at same
        rw [run_check script check] at exits
        rw [run_serve same runs] at exits'
        have reported : (Listing.load (Utf8.decodeLenient bytes)).errors ≠ [] := by
          intro nothing
          simp [nothing] at exits
        have sameText : Session.reportText (Listing.load (Utf8.decodeLenient bytes)).errors = written := by
          rw [← (Prod.mk.inj (Option.some.inj exits)).2] at wrote
          exact (String.append_right_inj _).1 wrote
        rw [← sameText]
        exact serveAll_reports reported exits'

/-- A line that cannot be read is reported either way; running carries out the other line. -/
example :
    let w : World Disk :=
      { files := { files := [(["dots"], "10 PRINT 1\n20 PRINT +\n".toUTF8.toList)] },
        clock := fun _ => ⟨2024, 1, 1, 0, 0, 0⟩ }
    let text := "\x1b[1m?SYNTAX ERROR IN 20; EXPECTED EXPRESSION, FOUND '+'\x1b[0m\n"
    let ends := fun (i : Invocation) => (i.run (.constant 0) 9 w).map fun (status, after) =>
      (status, after.output, after.errors)
    ends { script := "dots", checkOnly := true } = some (1, "", text) ∧
      ends { script := "dots" } = some (1, "1\n", text) := by
  decide +kernel

/-- Of two drawings, made a second apart, the first is kept. The second cannot be, where a directory has its
    name, and that stops the program. -/
example :
    let script := "10 DRAW START 1, 1\n20 DRAW FINISH\n30 DRAW START 2, 2\n40 DRAW FINISH\n"
    let taken := "dots-drawing_20240101-000001.svg"
    let w : World Disk :=
      { files := { directories := [[taken]], files := [(["dots"], script.toUTF8.toList)] },
        clock := fun n => ⟨2024, 1, 1, 0, 0, n⟩ }
    let problem := "Is a directory (os error 21)"
    ({ script := "dots" : Invocation }.run (.constant 0) 9 w).map (fun (status, after) =>
        (status, after.errors, after.saves.map fun save => (save.path, save.problem))) =
      some (1, "\x1b[1m?CAN'T CREATE FILE IN 40; ./" ++ taken ++ ": " ++ problem ++ "\x1b[0m\n",
        [("./dots-drawing_20240101-000000.svg", none), ("./" ++ taken, some problem)]) := by
  decide +kernel

end Invocation

end Plotline

/-
Module: Plotline.Proofs.DrawingCheck
Layer: Proofs
Purpose: The check of drawing regions that is made while a program is read is enough at run time. The scan of
  the statements before an address says on which side of a drawing the address lies; as long as no jump
  crosses such a boundary, the canvas is open exactly where the scan says so, and no statement fails for
  being on the wrong side. The invariant is `InStep`; one statement keeps it (`InStep.step`), hence a run
  within a budget, a call, and any calls do.
Main exports: InStep, Visit.StaysInRegion, InStep.step, drawing_check_sound
-/
import Plotline.Proofs.LabelIndex
import Plotline.Proofs.Plan
import Plotline.Proofs.Region
import Plotline.Proofs.Run

namespace Plotline

/-- The machine runs the given statements, and unless it has stopped its canvas is open exactly where the
    scan of the statements says that a drawing is under way. -/
structure InStep (statements : List Statement) (m : Machine) : Prop where
  program : m.program = Program.ofStatements statements
  canvas : m.isRunning = true →
    (m.canvas.isOpen = true ↔ Region.before statements m.pc = .opened)

/-- The visited statement takes no jump to an address on the other side of a drawing's boundary. -/
def Visit.StaysInRegion (statements : List Statement) (v : Visit) : Prop :=
  ∀ address, v.target? = some address →
    Region.before statements address = Region.before statements v.machine.pc

/-- The report is about being on the wrong side of a drawing's boundary. -/
def Diagnostic.IsRegional (d : Diagnostic) : Prop :=
  d.code = .drawingAlreadyStarted ∨ d.code = .noDrawingStarted

/-- A runtime report is not about regions. -/
theorem Diagnostic.IsRuntime.not_regional {d : Diagnostic} (h : d.IsRuntime) : ¬ d.IsRegional := by
  intro regional
  unfold IsRuntime kind at h
  rcases regional with code | code <;> rw [code] at h <;> cases h

/-- Where the rule of regions allows a command and the canvas agrees with the region, the command has no
    objection to it. -/
theorem Command.Objects.not_regional {canvas : Canvas} {c : Command} {problem : Diagnostic}
    {r r' : Region} (objects : c.Objects canvas problem) (moves : c.Moves r r')
    (agree : canvas.isOpen = true ↔ r = .opened) : ¬ problem.IsRegional := by
  cases objects with
  | runtime isRuntime => exact isRuntime.not_regional
  | start opened =>
      cases moves with
      | start => cases agree.1 opened
      | figure isFigure => cases isFigure
      | other _ notDrawing => cases notDrawing
  | finish closed =>
      cases moves with
      | finish => simp [closed] at agree
      | figure isFigure => cases isFigure
      | other _ notDrawing => cases notDrawing
  | figure isFigure closed =>
      cases moves with
      | start => cases isFigure
      | finish => cases isFigure
      | figure => simp [closed] at agree
      | other _ notDrawing => cases c <;> simp [isFigure, isDrawing] at isFigure notDrawing

/-- The machine is in step when it visits the statement, and the statement does not fail for being on the
    wrong side of a drawing's boundary. -/
def Visit.IsSafe (statements : List Statement) (v : Visit) : Prop :=
  (v.machine.canvas.isOpen = true ↔ Region.before statements v.machine.pc = .opened) ∧
  ∀ problems, v.event? = some (.errors problems) → ∀ problem ∈ problems, ¬ problem.IsRegional

namespace InStep

variable {statements : List Statement} {m : Machine} {last : Region}

/-! ### One statement -/

/-- The rule of regions holds at the address of a machine that is in step. -/
theorem moves (inStep : InStep statements m) (walk : Region.Path .closed statements last)
    {s : Statement} (found : m.program.statement? m.pc = some s) :
    s.command.Moves (Region.before statements m.pc) (Region.before statements (m.pc + 1)) := by
  rw [inStep.program, Program.statement?_ofStatements] at found
  exact walk.moves_at found

/-- Carrying out the action of a command moves the canvas as the scan moves past the command: a start opens
    both, a finish closes both, a jump that stays in its region keeps both, and nothing else touches either. -/
theorem canvas_carryOut {program : Program} {memory : Memory} {c : Command} {action : Action}
    {r : Region} (leads : c.LeadsTo program memory m.canvas action)
    (canvas : m.canvas.isOpen = true ↔ r = .opened)
    (next : c.regionAfter r = Region.before statements m.pc)
    (stays : ∀ address, action = .jump address → Region.before statements address = r) :
    (m.carryOut action).2.canvas.isOpen = true ↔
      Region.before statements (m.carryOut action).2.pc = .opened := by
  have unmoved : r = Region.before statements m.pc →
      (m.canvas.isOpen = true ↔ Region.before statements m.pc = .opened) := by
    intro same
    rw [← same]
    exact canvas
  cases leads with
  | start x y closed => exact ⟨fun _ => next.symm, fun _ => rfl⟩
  | finish opened =>
      have closed : Region.before statements m.pc = .closed := next.symm
      simp [Machine.carryOut, Canvas.empty, closed]
  | goto found | branch found =>
      have same := stays _ rfl
      simp only [Machine.carryOut, same]
      exact canvas
  | figure f isFigure opened =>
      have inside : r = .opened := canvas.1 opened
      subst inside
      have stays := (Command.Moves.figure isFigure).regionAfter_eq
      exact unmoved (stays.symm.trans next)
  | dim | halt | pass | input | assign | print | printText => exact unmoved next

/-- A statement that stays in its region keeps the machine in step. -/
theorem step (inStep : InStep statements m) (running : m.isRunning = true)
    (walk : Region.Path .closed statements last) {s : Statement}
    (found : m.program.statement? m.pc = some s) (stays : Visit.StaysInRegion statements ⟨m, s⟩) :
    InStep statements (m.step s).2 := by
  have moves := inStep.moves walk found
  rcases hstep : m.step s with ⟨event, next⟩
  rcases Machine.step_cases hstep with ⟨action, generator, planned, carried⟩ | ⟨_, _, _, _, rfl⟩
  · have leads := Command.plan_returns s.command m.generator action generator planned
    have canvas := canvas_carryOut (m := { m.advance with generator }) leads
      (inStep.canvas running) moves.regionAfter_eq
      (fun address jump => stays address (by simp [Visit.target?, planned, jump]))
    have program := Machine.carryOut_program { m.advance with generator } action
    rw [carried] at canvas program
    exact ⟨program.trans inStep.program, fun _ => canvas⟩
  · exact ⟨inStep.program, fun stopped => by simp [Machine.isRunning, Machine.abandon] at stopped⟩

/-- A statement of a machine that is in step does not fail for its region. The canvas check that it makes
    agrees with the check made when it was read. -/
theorem not_regional (inStep : InStep statements m) (running : m.isRunning = true)
    (walk : Region.Path .closed statements last) {s : Statement}
    (found : m.program.statement? m.pc = some s) {problems : List Diagnostic}
    (failed : (m.step s).1 = some (.errors problems)) :
    ∀ problem ∈ problems, ¬ problem.IsRegional := by
  have moves := inStep.moves walk found
  have canvas := inStep.canvas running
  rcases hstep : m.step s with ⟨event, next⟩
  rw [hstep] at failed
  cases failed
  rcases Machine.step_cases hstep with ⟨_, _, _, carried⟩ | ⟨problem, _, planned, reported, _⟩
  · exact (Machine.carryOut_event_ne_errors carried).elim
  · cases reported
    obtain ⟨objects, _⟩ := Command.plan_raises s.command m.generator problem (by
      rw [show (s.command.plan m.program m.memory m.canvas).runFrom m.generator = _ from planned])
    intro other mem
    cases List.mem_singleton.1 mem
    exact objects.not_regional moves canvas

/-! ### Runs and calls -/

/-- A run within a budget visits safe statements as long as they stay in their regions, and if they all do
    it leaves the machine in step. -/
theorem run (walk : Region.Path .closed statements last) (budget : Nat)
    (inStep : InStep statements m) (running : m.isRunning = true) :
    HoldsWhile (Visit.StaysInRegion statements) (Visit.IsSafe statements) (m.runVisits budget) ∧
    ((∀ v ∈ m.runVisits budget, v.StaysInRegion statements) → InStep statements (m.run budget).2) := by
  induction budget generalizing m with
  | zero => exact ⟨trivial, fun _ => inStep⟩
  | succ budget ih =>
      cases found : m.program.statement? m.pc with
      | none =>
          rw [Machine.runVisits_past_end found, Machine.run_past_end found]
          refine ⟨trivial, fun _ => ⟨inStep.program, fun stopped => ?_⟩⟩
          simp [Machine.isRunning] at stopped
      | some s =>
          have safe : Visit.IsSafe statements ⟨m, s⟩ :=
            ⟨inStep.canvas running, fun _ => inStep.not_regional running walk found⟩
          have next := inStep.step running walk found
          rcases hstep : m.step s with ⟨event, after⟩
          rw [hstep] at next
          cases event with
          | some event =>
              rw [Machine.runVisits_event found hstep, Machine.run_event found hstep]
              exact ⟨⟨safe, fun _ => trivial⟩, fun stays => next (stays _ (by simp))⟩
          | none =>
              have afterRunning : after.isRunning = true := by
                unfold Machine.isRunning
                rw [(Machine.step_none hstep).1]
                exact running
              rw [Machine.runVisits_silent found hstep, Machine.run_silent found hstep]
              refine ⟨⟨safe, fun stays => (ih (next stays) afterRunning).1⟩, fun stays => ?_⟩
              have stayed := next (stays _ (by simp))
              exact (ih stayed afterRunning).2 fun v mem => stays v (by simp [mem])

/-- A change to neither the program, the address nor the canvas keeps a machine in step, unless it starts a
    machine that had stopped. -/
theorem of_frame {next : Machine} (inStep : InStep statements m) (program : next.program = m.program)
    (pc : next.pc = m.pc) (canvas : next.canvas = m.canvas)
    (running : next.isRunning = true → m.isRunning = true) : InStep statements next := by
  refine ⟨program.trans inStep.program, fun nextRunning => ?_⟩
  rw [pc, canvas]
  exact inStep.canvas (running nextRunning)

theorem fail (inStep : InStep statements m) (problem : Diagnostic) :
    InStep statements (m.fail problem) :=
  ⟨inStep.program, fun stopped => by simp [Machine.fail, Machine.abandon, Machine.isRunning] at stopped⟩

theorem enter (inStep : InStep statements m) (text : String) : InStep statements (m.enter text).2 := by
  unfold Machine.enter
  split
  · rename_i name waiting
    split
    · exact inStep.of_frame rfl rfl rfl id
    · split
      · exact inStep.fail _
      · exact inStep.of_frame rfl rfl rfl fun _ => by simp [Machine.isRunning, waiting]
  · exact inStep

/-- The same as for a run, for any call that does not load another program. -/
theorem call (walk : Region.Path .closed statements last) (inStep : InStep statements m)
    (c : Call) (sameProgram : ∀ listing, c ≠ .load listing) :
    HoldsWhile (Visit.StaysInRegion statements) (Visit.IsSafe statements) (m.callVisits c) ∧
    ((∀ v ∈ m.callVisits c, v.StaysInRegion statements) → InStep statements (m.call c).2) := by
  cases c with
  | load listing => exact absurd rfl (sameProgram listing)
  | execute budget =>
      simp only [Machine.callVisits, Machine.call]
      by_cases ready : m.IsReady
      · rw [ready.executeVisits_eq, ready.execute_eq_run]
        have running : m.isRunning = true := by simp [Machine.isRunning, ready.2]
        exact inStep.run walk budget running
      · rw [Machine.executeVisits_of_not_ready ready]
        obtain ⟨redo, same⟩ := Machine.execute_not_ready_eq ready budget
        rw [same]
        exact ⟨trivial, fun _ => inStep.of_frame rfl rfl rfl id⟩
  | enter text => exact ⟨trivial, fun _ => inStep.enter text⟩
  | interrupt =>
      refine ⟨trivial, fun _ => ?_⟩
      simp only [Machine.call, Machine.interrupt]
      split
      · exact inStep.fail _
      · exact inStep
  | fail problem => exact ⟨trivial, fun _ => inStep.fail problem⟩

/-- The same for any number of calls. -/
theorem calls (walk : Region.Path .closed statements last) (calls : List Call)
    (sameProgram : ∀ listing, .load listing ∉ calls) (inStep : InStep statements m) :
    HoldsWhile (Visit.StaysInRegion statements) (Visit.IsSafe statements) (m.visits calls) ∧
    ((∀ v ∈ m.visits calls, v.StaysInRegion statements) → InStep statements (m.after calls)) := by
  induction calls generalizing m with
  | nil => exact ⟨trivial, fun _ => inStep⟩
  | cons c rest ih =>
      obtain ⟨safe, next⟩ := inStep.call walk c fun listing same =>
        sameProgram listing (by simp [same])
      have others : ∀ listing, .load listing ∉ rest := fun listing mem =>
        sameProgram listing (List.mem_cons_of_mem c mem)
      simp only [Machine.visits, Machine.after]
      refine ⟨safe.append fun stays => (ih others (next stays)).1, fun stays => ?_⟩
      have stayed := next fun v mem => stays v (List.mem_append_left _ mem)
      exact (ih others stayed).2 fun v mem => stays v (List.mem_append_right _ mem)

theorem load (m : Machine) (listing : Listing) :
    InStep listing.statements (m.load listing) :=
  ⟨rfl, fun _ => by simp [Machine.load, Region.before, Region.scan, Canvas.empty]⟩

end InStep

/-- The check of drawing regions made while a source text is read holds good at run time. Take any calls
    made after loading the text. If no jump taken crosses the boundary of a drawing, then at the end, unless
    the program has stopped, the canvas is open exactly if the scan of the statements says so at the next
    address. And every statement carried out before the first such jump, so in particular before the first
    jump of all, meets a canvas that agrees with the scan and does not fail for its region. -/
theorem drawing_check_sound (m : Machine) (source : String) (calls : List Call)
    (sameProgram : ∀ listing, .load listing ∉ calls) :
    ((∀ v ∈ (m.load (Listing.load source)).visits calls,
        v.StaysInRegion (Listing.load source).statements) →
      ((m.load (Listing.load source)).after calls).isRunning = true →
      (((m.load (Listing.load source)).after calls).canvas.isOpen = true ↔
        Region.before (Listing.load source).statements
          ((m.load (Listing.load source)).after calls).pc = .opened)) ∧
    ∀ before v rest, (m.load (Listing.load source)).visits calls = before ++ v :: rest →
      (∀ u ∈ before, u.StaysInRegion (Listing.load source).statements) →
      (v.machine.canvas.isOpen = true ↔
        Region.before (Listing.load source).statements v.machine.pc = .opened) ∧
      ∀ problems, v.event? = some (.errors problems) → ∀ problem ∈ problems,
        problem.code ≠ .drawingAlreadyStarted ∧ problem.code ≠ .noDrawingStarted := by
  obtain ⟨safe, inStep⟩ := (InStep.load m (Listing.load source)).calls
    (Listing.load_path source) calls sameProgram
  constructor
  · intro stays running
    exact (inStep stays).canvas running
  · intro before v rest split stays
    rw [split] at safe
    obtain ⟨canvas, notRegional⟩ := safe.of_split stays
    refine ⟨canvas, fun problems failed problem mem => ?_⟩
    exact not_or.1 (notRegional problems failed problem mem)

/-- A drawing in which a jump passes over a figure. -/
def sketch : String :=
  "10 DRAW START 9, 9\n20 GOTO 40\n30 PLOT 1, 2, 3, RED\n40 DRAW FINISH\n"

/-- The machine that is about to run the sketch. -/
def sketchMachine : Machine :=
  (Machine.new (.constant 0)).load (Listing.load sketch)

/-- The label that a command jumps to without a condition. -/
def Command.goto? : Command → Option Label
  | .goto target => some target
  | _ => none

/-- The machine inside the drawing of the sketch. -/
def sketchInside : Machine :=
  sketchMachine.after [.execute 1]

/-- Inside the drawing the jump is taken. -/
theorem sketchInside_jumps : ∃ label,
    sketchInside.program.statement? sketchInside.pc = some ⟨label, .goto "40"⟩ ∧
    Visit.target? ⟨sketchInside, label, .goto "40"⟩ = some 3 ∧
    sketchInside.step ⟨label, .goto "40"⟩ = (none, { sketchInside.advance with pc := 3 }) := by
  have isGoto : (sketchInside.program.statement? sketchInside.pc).map (·.command.goto?) =
      some (some "40") := by
    decide +kernel
  obtain ⟨⟨label, command⟩, here, target⟩ := Option.map_eq_some_iff.1 isGoto
  -- Labels are looked up by their hashes, which do not evaluate here; the scan for the first label does.
  have found : sketchInside.program.addressOf "40" = .ok 3 := by
    rw [show sketchInside.program = .ofStatements (Listing.load sketch).statements from
      Machine.after_program sketchMachine [.execute 1] (by simp)]
    exact Program.addressOf_ofStatements.2 (by decide +kernel)
  cases command with
  | goto other =>
      cases target
      refine ⟨label, here, ?_, Machine.step_goto found⟩
      rw [Visit.target?, Machine.planned_goto, found]
      rfl
  | _ => cases target

/-- Two statements into the sketch the jump has been taken, and the canvas agrees with the scan. -/
theorem drawing_check_sound_sketch :
    let calls := [Call.execute 1, .execute 1]
    (∃ v ∈ sketchMachine.visits calls, v.target? = some 3) ∧
    (∀ v ∈ sketchMachine.visits calls, v.StaysInRegion (Listing.load sketch).statements) ∧
    (sketchMachine.after calls).isRunning = true ∧
    ((sketchMachine.after calls).canvas.isOpen = true ↔
      Region.before (Listing.load sketch).statements (sketchMachine.after calls).pc = .opened) := by
  intro calls
  obtain ⟨label, second, target, jumped⟩ := sketchInside_jumps
  have ready : sketchInside.IsReady := ⟨by decide +kernel, by decide +kernel⟩
  have jumps : sketchInside.visits [.execute 1] = [⟨sketchInside, label, .goto "40"⟩] := by
    simp only [Machine.visits, Machine.callVisits, ready.executeVisits_eq,
      Machine.runVisits_silent second jumped]
    rfl
  have visits : sketchMachine.visits calls =
      sketchMachine.visits [.execute 1] ++ [⟨sketchInside, label, .goto "40"⟩] :=
    jumps ▸ sketchMachine.visits_append [.execute 1] [.execute 1]
  have there : sketchMachine.after calls = { sketchInside.advance with pc := 3 } := by
    show (sketchInside.execute 1).2 = _
    rw [ready.execute_eq_run, Machine.run_silent second jumped]
    rfl
  have noJump : ((sketchMachine.visits [.execute 1]).all fun v => v.target?.isNone) = true := by
    decide +kernel
  have stays : ∀ v ∈ sketchMachine.visits calls, v.StaysInRegion (Listing.load sketch).statements := by
    rw [visits]
    intro v mem address taken
    rcases List.mem_append.1 mem with before | here
    · have goesOn := List.all_eq_true.1 noJump v before
      simp [taken] at goesOn
    · cases List.mem_singleton.1 here
      cases target.symm.trans taken
      show Region.before _ 3 = Region.before _ sketchInside.pc
      decide +kernel
  have running : (sketchMachine.after calls).isRunning = true := by
    rw [there]
    decide +kernel
  have sound := drawing_check_sound (Machine.new (.constant 0)) sketch calls (by simp [calls])
  refine ⟨⟨_, ?_, target⟩, stays, running, sound.1 stays running⟩
  rw [visits]
  exact List.mem_append_right _ (List.mem_singleton_self _)

end Plotline

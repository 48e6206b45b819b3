/-
Module: Plotline.Proofs.Plan
Layer: Proofs
Purpose: What planning a command can come to, said once with every guard. `Command.LeadsTo` lists the
  actions, each with the check that it passed; `Command.Objects` lists the reports. Evaluating operands,
  reading variables and looking up labels raise runtime reports only, so a report about drawing regions
  comes from the one check of the canvas that the command makes. No report has a label yet, and in a
  coherent memory none is about missing storage.
Main exports: Command.LeadsTo, Command.plan_returns, Command.Objects, Memory.Raises, Command.plan_raises,
  Expression.value_raises
-/
import Plotline.Action
import Plotline.Proofs.Region
import Plotline.Proofs.Slots

namespace Plotline

/-! ### Runtime reports -/

namespace Diagnostic

/-- The report is about a running program. -/
def IsRuntime (d : Diagnostic) : Prop :=
  d.kind = .runtime

end Diagnostic

namespace Memory

/-- The report has no label yet, and in a coherent memory it is not about missing storage. -/
structure Raises (m : Memory) (problem : Diagnostic) : Prop where
  unlabelled : problem.label = none
  external : m.IsCoherent → problem.code ≠ .internalError

/-- A report of a running program on one of its variables. -/
def Faults (m : Memory) (problem : Diagnostic) : Prop :=
  problem.IsRuntime ∧ m.Raises problem

variable {m : Memory} {problem : Diagnostic}

theorem Faults.of_code {code : Diagnostic.Code} {detail : String} (runtime : code.kind = .runtime)
    (other : code ≠ .internalError) : m.Faults { code, detail } :=
  ⟨runtime, rfl, fun _ => other⟩

theorem fetch_raises {name : String} (h : m.fetch name = .error problem) : m.Faults problem := by
  unfold fetch at h
  split at h
  · cases h
    exact .of_code rfl (by decide)
  · split at h
    · cases h
    · cases h
      exact .of_code rfl (by decide)

theorem lengthOf_raises {name : String} (h : m.lengthOf name = .error problem) : m.Faults problem := by
  unfold lengthOf at h
  split at h
  · cases h
  · split at h
    · cases h
      exact .of_code rfl (by decide)
    · cases h
      exact .of_code rfl (by decide)

theorem subscriptValue_raises {subscript : Subscript}
    (h : m.subscriptValue subscript = .error problem) : m.Faults problem := by
  unfold subscriptValue at h
  split at h
  · cases h
  · split at h
    · cases h
      exact .of_code rfl (by decide)
    · exact fetch_raises h

theorem offsetOf_raises {name : String} {length : Nat} {value : Float}
    (h : offsetOf name length value = .error problem) : m.Faults problem := by
  unfold offsetOf at h
  split at h
  · cases h
    exact .of_code rfl (by decide)
  · split at h
    · cases h
    · cases h
      exact .of_code rfl (by decide)

theorem offset_raises {name : String} {subscript : Subscript}
    (h : m.offset name subscript = .error problem) : m.Faults problem := by
  rcases bind_eq_error.1 h with h | ⟨length, _, h⟩
  · exact lengthOf_raises h
  · rcases bind_eq_error.1 h with h | ⟨value, _, h⟩
    · exact subscriptValue_raises h
    · exact offsetOf_raises h

/-- In a coherent memory there is always a number at an offset that was found. -/
theorem cell_raises {name : String} {subscript : Subscript} {offset : Nat}
    (found : m.offset name subscript = .ok offset) (h : m.cell name offset = .error problem) :
    m.Faults problem := by
  have missing : m.IsCoherent → False := by
    intro coherent
    obtain ⟨x, stored⟩ := coherent.cell_of_offset found
    rw [stored] at h
    cases h
  unfold cell at h
  split at h
  · cases h
  · cases h
    exact ⟨rfl, rfl, fun coherent => (missing coherent).elim⟩

theorem read_raises {place : Variable} (h : m.read place = .error problem) : m.Faults problem := by
  unfold read at h
  split at h
  · exact fetch_raises h
  · split at h
    · rcases bind_eq_error.1 h with h | ⟨offset, found, h⟩
      · exact offset_raises h
      · exact cell_raises found h
    · exact fetch_raises h

theorem locate_raises {place : Variable} (h : m.locate place = .error problem) : m.Faults problem := by
  cases place with
  | scalar name =>
      simp only [locate] at h
      split at h
      · cases h
        exact .of_code rfl (by decide)
      · cases h
  | element name subscript =>
      rcases bind_eq_error.1 h with h | ⟨offset, found, h⟩
      · exact offset_raises h
      · cases stored : m.cell name offset with
        | ok x =>
            rw [stored] at h
            cases h
        | error other =>
            rw [stored] at h
            cases h
            exact cell_raises found stored

theorem canDimension_raises {name : String} {length : Nat}
    (h : m.canDimension name length = .error problem) : m.Faults problem := by
  unfold canDimension at h
  split at h
  · cases h
    exact .of_code rfl (by decide)
  · split at h
    · cases h
      exact .of_code rfl (by decide)
    · cases h

end Memory

theorem Program.addressOf_raises {p : Program} {label : Label} {problem : Diagnostic} (m : Memory)
    (h : p.addressOf label = .error problem) : m.Faults problem := by
  unfold addressOf at h
  split at h
  · cases h
  · cases h
    exact .of_code rfl (by decide)

open Evaluation (RaisesOnly)

theorem Function.valueAt_raises (P : Diagnostic → Prop) (x : Float) (f : Builtin) :
    RaisesOnly P (valueAt x f) := by
  intro g problem h
  cases f <;> cases h

theorem Function.call_raises (m : Memory) (name : String) (arguments : List Float) :
    RaisesOnly m.Faults (call name arguments) := by
  unfold call
  split
  · exact .throw (.of_code rfl (by decide))
  · split
    · exact valueAt_raises _ _ _
    · exact .throw (.of_code rfl (by decide))

mutual

/-- Evaluating an expression raises runtime reports only. -/
theorem Expression.value_raises (m : Memory) : ∀ e : Expression, RaisesOnly m.Faults (e.value m)
  | .number x => .pure x
  | .var place => .check fun _ h => Memory.read_raises h
  | .call function arguments => by
      unfold Expression.value
      exact .bind (Expression.values_raises m arguments) fun xs => Function.call_raises m function xs
  | .binary op lhs rhs => by
      unfold Expression.value
      exact .bind (Expression.value_raises m lhs) fun x =>
        .bind (Expression.value_raises m rhs) fun y => .pure _

theorem Expression.values_raises (m : Memory) :
    ∀ es : List Expression, RaisesOnly m.Faults (Expression.values m es)
  | [] => .pure []
  | e :: rest => by
      unfold Expression.values
      exact .bind (Expression.value_raises m e) fun x =>
        .bind (Expression.values_raises m rest) fun xs => .pure _

end

namespace Command

open Evaluation (ReturnsOnly)

variable {program : Program} {memory : Memory} {canvas : Canvas}

/-! ### Actions -/

/-- The actions that a command can come down to, with the checks that come before them. -/
inductive LeadsTo (program : Program) (memory : Memory) (canvas : Canvas) :
    Command → Action → Prop where
  | dim {name : String} {length : Nat} (free : memory.canDimension name length = .ok ()) :
      LeadsTo program memory canvas (.dim name length) (.addArray name length)
  | start {width height : Expression} (x y : Float) (closed : canvas.isOpen = false) :
      LeadsTo program memory canvas (.drawStart width height) (.startDrawing x y)
  | finish (opened : canvas.isOpen = true) :
      LeadsTo program memory canvas .drawFinish .finishDrawing
  | halt : LeadsTo program memory canvas .halt .halt
  | goto {target : Label} {address : Nat} (found : program.addressOf target = .ok address) :
      LeadsTo program memory canvas (.goto target) (.jump address)
  | branch {lhs rhs : Expression} {comparison : Comparison} {target : Label} {address : Nat}
      (found : program.addressOf target = .ok address) :
      LeadsTo program memory canvas (.branch lhs comparison rhs target) (.jump address)
  | pass {lhs rhs : Expression} {comparison : Comparison} {target : Label} :
      LeadsTo program memory canvas (.branch lhs comparison rhs target) .proceed
  | input {name : String} {slot : Memory.Slot} (located : memory.locate (.scalar name) = .ok slot) :
      LeadsTo program memory canvas (.input name) (.ask name)
  | assign {place : Variable} {value : Expression} {slot : Memory.Slot} (x : Float)
      (located : memory.locate place = .ok slot) :
      LeadsTo program memory canvas (.assign place value) (.put slot x)
  | figure {c : Command} (f : Figure) (isFigure : c.isFigure = true)
      (opened : canvas.isOpen = true) : LeadsTo program memory canvas c (.draw f)
  | print {value : Expression} (x : Float) :
      LeadsTo program memory canvas (.print value) (.print (Number.text x))
  | printText {text : String} : LeadsTo program memory canvas (.printText text) (.print text)

theorem requireOpen_ok (h : canvas.requireOpen = .ok ()) : canvas.isOpen = true := by
  unfold Canvas.requireOpen at h
  split at h
  · assumption
  · cases h

theorem requireClosed_canvas_ok (h : canvas.requireClosed = .ok ()) : canvas.isOpen = false := by
  unfold Canvas.requireClosed at h
  split at h
  · cases h
  · rename_i notOpen
    simpa using notOpen

private theorem planFigure_returns {c : Command} (isFigure : c.isFigure = true) (figure : Figure) :
    ReturnsOnly (LeadsTo program memory canvas c) (planFigure canvas figure) :=
  .check_bind fun _ checked => .pure (.figure figure isFigure (requireOpen_ok checked))

/-- An input only looks whether its variable can be written. -/
theorem plan_input (name : String) (g : Generator) :
    ((Command.input name).plan program memory canvas).runFrom g =
      ((memory.locate (.scalar name)).map fun _ => .ask name, g) := by
  cases located : memory.locate (.scalar name) with
  | ok slot =>
      simp only [plan, located]
      rfl
  | error problem =>
      simp only [plan, located]
      rfl

/-- Every action that a command is planned to is one of those listed. -/
theorem plan_returns (c : Command) :
    ReturnsOnly (LeadsTo program memory canvas c) (c.plan program memory canvas) := by
  cases c with
  | dim name length => exact .check_bind fun _ free => .pure (.dim free)
  | drawStart width height =>
      refine .bind fun x => .bind fun y => .check_bind fun _ checked => .pure ?_
      exact .start x y (requireClosed_canvas_ok checked)
  | drawFinish => exact .check_bind fun _ checked => .pure (.finish (requireOpen_ok checked))
  | halt => exact .pure .halt
  | goto target => exact .check_bind fun _ found => .pure (.goto found)
  | branch lhs comparison rhs target =>
      refine .bind fun x => .bind fun y => ?_
      split
      · exact .check_bind fun _ found => .pure (.branch found)
      · exact .pure .pass
  | input name =>
      intro g action last h
      rw [plan_input] at h
      cases located : memory.locate (.scalar name) with
      | ok slot =>
          rw [located] at h
          cases h
          exact .input located
      | error problem =>
          rw [located] at h
          cases h
  | assign place value =>
      exact .bind fun x => .check_bind fun _ located => .pure (.assign x located)
  | line x1 y1 x2 y2 color | rectangle x1 y1 x2 y2 color filled =>
      exact .bind fun _ => .bind fun _ => .bind fun _ => .bind fun _ => planFigure_returns rfl _
  | plot x y radius color filled =>
      exact .bind fun _ => .bind fun _ => .bind fun _ => planFigure_returns rfl _
  | print value => exact .bind fun x => .pure (.print x)
  | printText text => exact .pure .printText

/-! ### Reports -/

/-- The reports that planning a command can end with: one about the running program, or the one about the
    drawing region that the command's own check makes. -/
inductive Objects (canvas : Canvas) : Command → Diagnostic → Prop where
  | runtime {c : Command} {problem : Diagnostic} (h : problem.IsRuntime) : Objects canvas c problem
  | start {width height : Expression} (opened : canvas.isOpen = true) :
      Objects canvas (.drawStart width height) { code := .drawingAlreadyStarted }
  | finish (closed : canvas.isOpen = false) :
      Objects canvas .drawFinish { code := .noDrawingStarted }
  | figure {c : Command} (isFigure : c.isFigure = true) (closed : canvas.isOpen = false) :
      Objects canvas c { code := .noDrawingStarted }

theorem requireOpen_error {problem : Diagnostic} (h : canvas.requireOpen = .error problem) :
    problem = { code := .noDrawingStarted } ∧ canvas.isOpen = false := by
  unfold Canvas.requireOpen at h
  split at h
  · cases h
  · rename_i notOpen
    cases h
    exact ⟨rfl, by simpa using notOpen⟩

theorem requireClosed_canvas_error {problem : Diagnostic}
    (h : canvas.requireClosed = .error problem) :
    problem = { code := .drawingAlreadyStarted } ∧ canvas.isOpen = true := by
  unfold Canvas.requireClosed at h
  split at h
  · rename_i opened
    cases h
    exact ⟨rfl, opened⟩
  · cases h

/-- The reports that planning a command can end with, as they come from its parts. -/
def Refuses (memory : Memory) (canvas : Canvas) (c : Command) (problem : Diagnostic) : Prop :=
  Objects canvas c problem ∧ memory.Raises problem

theorem Refuses.of_faults {c : Command} {problem : Diagnostic} (faults : memory.Faults problem) :
    Refuses memory canvas c problem :=
  ⟨.runtime faults.1, faults.2⟩

private theorem value_refuses (c : Command) (e : Expression) :
    RaisesOnly (Refuses memory canvas c) (e.value memory) := by
  intro g problem h
  exact .of_faults (Expression.value_raises memory e g problem h)

private theorem planFigure_refuses {c : Command} (isFigure : c.isFigure = true) (figure : Figure) :
    RaisesOnly (Refuses memory canvas c) (planFigure canvas figure) := by
  refine .bind (.check fun problem h => ?_) fun _ => .pure _
  obtain ⟨rfl, closed⟩ := requireOpen_error h
  exact ⟨.figure isFigure closed, rfl, fun _ => by simp⟩

private theorem jump_refuses (c : Command) (target : Label) :
    RaisesOnly (Refuses memory canvas c)
      (do let address ← Work.check (program.addressOf target); pure (Action.jump address)) :=
  .bind (.check fun _ h => .of_faults (Program.addressOf_raises memory h)) fun _ => .pure _

/-- Every report that planning a command ends with is one of those listed, and has no label yet. In a
    coherent memory none is about missing storage. -/
theorem plan_raises (c : Command) :
    RaisesOnly (Refuses memory canvas c) (c.plan program memory canvas) := by
  cases c with
  | dim name length =>
      exact .bind (.check fun _ h => .of_faults (Memory.canDimension_raises h)) fun _ => .pure _
  | drawStart width height =>
      refine .bind (value_refuses _ _) fun x => .bind (value_refuses _ _) fun y => ?_
      refine .bind (.check fun problem h => ?_) fun _ => .pure _
      obtain ⟨rfl, opened⟩ := requireClosed_canvas_error h
      exact ⟨.start opened, rfl, fun _ => by simp⟩
  | drawFinish =>
      refine .bind (.check fun problem h => ?_) fun _ => .pure _
      obtain ⟨rfl, closed⟩ := requireOpen_error h
      exact ⟨.finish closed, rfl, fun _ => by simp⟩
  | halt => exact .pure _
  | goto target => exact jump_refuses _ target
  | branch lhs comparison rhs target =>
      refine .bind (value_refuses _ _) fun x => .bind (value_refuses _ _) fun y => ?_
      split
      · exact jump_refuses _ target
      · exact .pure _
  | input name =>
      intro g problem h
      rw [plan_input] at h
      cases located : memory.locate (.scalar name) with
      | ok slot =>
          rw [located] at h
          cases h
      | error other =>
          rw [located] at h
          cases h
          exact .of_faults (Memory.locate_raises located)
  | assign place value =>
      exact .bind (value_refuses _ _) fun x =>
        .bind (.check fun _ h => .of_faults (Memory.locate_raises h)) fun _ => .pure _
  | line x1 y1 x2 y2 color =>
      exact .bind (value_refuses _ _) fun _ => .bind (value_refuses _ _) fun _ =>
        .bind (value_refuses _ _) fun _ => .bind (value_refuses _ _) fun _ =>
          planFigure_refuses rfl _
  | plot x y radius color filled =>
      exact .bind (value_refuses _ _) fun _ => .bind (value_refuses _ _) fun _ =>
        .bind (value_refuses _ _) fun _ => planFigure_refuses rfl _
  | print value => exact .bind (value_refuses _ _) fun _ => .pure _
  | printText text => exact .pure _
  | rectangle x1 y1 x2 y2 color filled =>
      exact .bind (value_refuses _ _) fun _ => .bind (value_refuses _ _) fun _ =>
        .bind (value_refuses _ _) fun _ => .bind (value_refuses _ _) fun _ =>
          planFigure_refuses rfl _

end Command

end Plotline

/-
Module: Plotline.Proofs.InPlace
Layer: Proofs
Purpose: Statements carried out in place. Here a statement works on the machine itself, write by write, and
  where it fails the machine is left as it then is: operands move its generator, variables and drawing are
  changed by the operations of their own, and the flow is followed at the end. Every such operation makes
  its check before its first write (`Work.ChecksFirst`), so that planning a command and then carrying out
  its action comes to the same (`Machine.stepInPlace_eq`).
Main exports: Work.ChecksFirst, Memory.storing, Memory.storingElement, Memory.dimensioning, Machine.Flow,
  Machine.work, Machine.stepInPlace, Machine.stepInPlace_eq
-/
import Plotline.Machine
import Plotline.Proofs.Plan

namespace Plotline

namespace Work

variable {σ τ α β : Type}

theorem runFrom_tryCatch (x : Work σ α) (handle : Diagnostic → Work σ α) (s : σ) :
    runFrom (tryCatch x handle) s =
      match runFrom x s with
      | (.ok a, next) => (.ok a, next)
      | (.error problem, next) => runFrom (handle problem) next := by
  simp only [runFrom, ExceptT.run_tryCatch, StateT.run_bind]
  rcases StateT.run (ExceptT.run x) s with ⟨outcome, next⟩
  cases outcome with
  | ok a => rfl
  | error problem => rfl

@[simp] theorem runFrom_get (s : σ) : runFrom (get : Work σ σ) s = (.ok s, s) := rfl

@[simp] theorem runFrom_getThe (s : σ) : runFrom (getThe σ : Work σ σ) s = (.ok s, s) := rfl

@[simp] theorem runFrom_within (part : σ → τ) (replace : σ → τ → σ) (work : Work τ α) (s : σ) :
    (work.within part replace).runFrom s =
      ((work.runFrom (part s)).1, replace s (work.runFrom (part s)).2) := rfl

/-- The work makes a check that changes nothing, and only once it is passed does it change the state. -/
def ChecksFirst (work : Work σ β) (check : σ → Except Diagnostic α) (change : σ → α → β × σ) : Prop :=
  ∀ s, work.runFrom s =
    match check s with
    | .ok a => (.ok (change s a).1, (change s a).2)
    | .error problem => (.error problem, s)

/-- Work that checks first leaves the state as it was where it fails. -/
theorem ChecksFirst.failed {work : Work σ β} {check : σ → Except Diagnostic α} {change : σ → α → β × σ}
    (checksFirst : work.ChecksFirst check change) {s : σ} {problem : Diagnostic}
    (failed : (work.runFrom s).1 = .error problem) : (work.runFrom s).2 = s := by
  rw [checksFirst s] at failed ⊢
  cases checked : check s with
  | ok a => simp [checked] at failed
  | error cause => rfl

/-- Work that checks first does so on a part of a state as well. -/
theorem ChecksFirst.within {work : Work τ β} {check : τ → Except Diagnostic α} {change : τ → α → β × τ}
    (checksFirst : work.ChecksFirst check change) {part : σ → τ} {replace : σ → τ → σ}
    (same : ∀ s, replace s (part s) = s) :
    (work.within part replace).ChecksFirst (fun s => check (part s))
      fun s a => ((change (part s) a).1, replace s (change (part s) a).2) := by
  intro s
  rw [runFrom_within, checksFirst (part s)]
  dsimp only
  cases check (part s) with
  | ok a => rfl
  | error problem => simp only [same]

theorem ChecksFirst.returning {γ : Type} {work : Work σ β} {check : σ → Except Diagnostic α}
    {change : σ → α → β × σ} (checksFirst : work.ChecksFirst check change) (result : β → γ) :
    ChecksFirst (do let b ← work; pure (result b)) check
      fun s a => (result (change s a).1, (change s a).2) := by
  intro s
  rw [runFrom_bind, checksFirst s]
  cases check s with
  | ok a => rfl
  | error problem => rfl

end Work

open Work (ChecksFirst)

/-! ### Drawings -/

namespace Canvas

theorem start_checksFirst (width height : Float) :
    ChecksFirst (start width height) requireClosed fun _ _ => ((), blank width height) := by
  rintro ⟨elements, isOpen⟩
  cases isOpen with
  | true => rfl
  | false => rfl

theorem draw_checksFirst (f : Figure) : ChecksFirst (draw f) requireOpen fun c _ => ((), c.add f) := by
  rintro ⟨elements, isOpen⟩
  cases isOpen with
  | true => rfl
  | false => rfl

theorem finish_checksFirst : ChecksFirst finish requireOpen fun c _ => (c.document, empty) := by
  rintro ⟨elements, isOpen⟩
  cases isOpen with
  | true =>
      show (Except.ok (joinLines (elements.push closingTag).toList), empty) = _
      rw [Array.toList_push]
      rfl
  | false => rfl

/-- What an operation needs. -/
def Operation.check : Operation → Canvas → Except Diagnostic Unit
  | start .., c => c.requireClosed
  | draw _, c => c.requireOpen
  | finish, c => c.requireOpen
  | clear, _ => .ok ()

/-- What an operation does where it can be carried out. -/
def Operation.change : Operation → Canvas → Option String × Canvas
  | start width height, _ => (none, blank width height)
  | draw figure, c => (none, c.add figure)
  | finish, c => (some c.document, empty)
  | clear, _ => (none, empty)

theorem Operation.work_checksFirst (op : Operation) :
    ChecksFirst op.work op.check fun c _ => op.change c := by
  cases op with
  | start width height => exact (start_checksFirst width height).returning fun _ => none
  | draw figure => exact (draw_checksFirst figure).returning fun _ => none
  | finish => exact finish_checksFirst.returning some
  | clear => exact fun _ => rfl

end Canvas

/-! ### Variables -/

namespace Memory

/-- Writes a scalar. -/
def storing (name : String) (x : Float) : Work Memory Unit := do
  if (← getThe Memory).isArray name then throw (arrayMismatch name)
  modify fun m => { m with cells := m.cells.insert name #[x] }

/-- Writes an array element. -/
def storingElement (name : String) (subscript : Subscript) (x : Float) : Work Memory Unit := do
  let offset ← Work.check ((← getThe Memory).offset name subscript)
  discard (Work.check ((← getThe Memory).cell name offset))
  modify fun m => { m with cells := m.cells.modify name (·.setIfInBounds offset x) }

/-- Writes a variable. -/
def writing (place : Variable) (x : Float) : Work Memory Unit :=
  match place with
  | .scalar name => storing name x
  | .element name subscript => storingElement name subscript x

/-- Makes an array. -/
def dimensioning (name : String) (length : Nat) : Work Memory Unit := do
  if (← getThe Memory).isUsed name then throw { code := .redimensionedArray, detail := name }
  if lengthLimit < length then
    throw
      { code := .outOfMemory
        detail := name ++ "[" ++ String.ofList (Nat.toDigits 10 length) ++ "]" }
  modify fun m => { m with lengths := m.lengths.insert name length }
  modify fun m => { m with cells := m.cells.insert name (Array.replicate length 0.0) }

theorem writing_checksFirst (place : Variable) (x : Float) :
    ChecksFirst (writing place x) (·.locate place) fun m slot => ((), m.put slot x) := by
  intro m
  cases place with
  | scalar name =>
      simp only [writing, storing, locate, Work.runFrom_bind, Work.runFrom_getThe]
      split
      · rfl
      · rfl
  | element name subscript =>
      simp only [writing, storingElement, locate, Work.runFrom_bind, Work.runFrom_getThe, Work.runFrom_check]
      cases m.offset name subscript with
      | error problem => rfl
      | ok offset =>
          simp only [bind, Except.bind]
          cases m.cell name offset with
          | error problem => rfl
          | ok _ => rfl

theorem dimensioning_checksFirst (name : String) (length : Nat) :
    ChecksFirst (dimensioning name length) (·.canDimension name length)
      fun m _ => ((), m.addArray name length) := by
  intro m
  simp only [dimensioning, canDimension, Work.runFrom_bind, Work.runFrom_getThe]
  split
  · rfl
  · split
    · rfl
    · rfl

end Memory

/-! ### Statements -/

namespace Machine

/-- Where a statement leads. -/
inductive Flow where
  | advance
  | jump (address : Nat)
  | halt

/-- The value of an operand, with the variables and the generator that the machine has. -/
def operand (e : Expression) : Work Machine Float := do
  let memory := (← get).memory
  (e.value memory).within (·.generator) ({ · with generator := · })

/-- Work on the variables. -/
def onMemory {α : Type} (work : Work Memory α) : Work Machine α :=
  work.within (·.memory) ({ · with memory := · })

/-- Work on the drawing. -/
def onCanvas {α : Type} (work : Work Canvas α) : Work Machine α :=
  work.within (·.canvas) ({ · with canvas := · })

/-- The address of a label. -/
def addressOf (target : Label) : Work Machine Nat := do
  Work.check ((← get).program.addressOf target)

/-- The work of a command: the event that it gives, if any, and where it leads. -/
def work : Command → Work Machine (Option Event × Flow)
  | .dim name length => do
      onMemory (Memory.dimensioning name length)
      pure (none, .advance)
  | .drawStart width height => do
      let width ← operand width
      let height ← operand height
      onCanvas (Canvas.start width height)
      pure (none, .advance)
  | .drawFinish => do
      let document ← onCanvas Canvas.finish
      pure (some (.drawing document), .advance)
  | .halt => pure (none, .halt)
  | .goto target => do
      let address ← addressOf target
      pure (none, .jump address)
  | .branch lhs comparison rhs target => do
      let x ← operand lhs
      let y ← operand rhs
      if comparison.holds x y then
        let address ← addressOf target
        pure (none, .jump address)
      else pure (none, .advance)
  | .input name => do
      if (← get).memory.isArray name then throw (Memory.arrayMismatch name)
      modify ({ · with state := .waiting name })
      pure (some (.input prompt), .advance)
  | .assign place value => do
      let x ← operand value
      onMemory (Memory.writing place x)
      pure (none, .advance)
  | .line x1 y1 x2 y2 color => do
      let x1 ← operand x1
      let y1 ← operand y1
      let x2 ← operand x2
      let y2 ← operand y2
      onCanvas (Canvas.draw (.line x1 y1 x2 y2 color))
      pure (none, .advance)
  | .plot x y radius color filled => do
      let x ← operand x
      let y ← operand y
      let radius ← operand radius
      onCanvas (Canvas.draw (.circle x y radius color filled))
      pure (none, .advance)
  | .print value => do
      let x ← operand value
      pure (some (.print (Number.text x ++ "\n")), .advance)
  | .printText text => pure (some (.print (text ++ "\n")), .advance)
  | .rectangle x1 y1 x2 y2 color filled => do
      let x1 ← operand x1
      let y1 ← operand y1
      let x2 ← operand x2
      let y2 ← operand y2
      onCanvas (Canvas.draw (.rectangle x1 y1 x2 y2 color filled))
      pure (none, .advance)

/-- Goes where a statement leads. -/
def follow : Option Event × Flow → Work Machine (Option Event)
  | (event, .advance) => pure event
  | (event, .jump address) => do
      modify ({ · with pc := address })
      pure event
  | (_, .halt) => do
      modify ({ · with state := .stopped })
      pure (some .ended)

/-- Stops the program with a report under a label, and drops the drawing. -/
def giveUp (label : Label) (problem : Diagnostic) : Work Machine (Option Event) := do
  modify ({ · with state := .stopped })
  onCanvas Canvas.clear
  pure (some (.errors [problem.inLabel label]))

/-- Carries out the statement at the current address, in place. A statement that fails stops the program. -/
def stepInPlace (s : Statement) : Work Machine (Option Event) := do
  modify fun m => { m with last := some m.pc }
  modify fun m => { m with pc := m.pc + 1 }
  tryCatch (work s.command >>= follow) (giveUp s.label)

/-! ### Plans -/

/-- The work does what a plan says, whatever numbers have been drawn: it carries out the action that the
    plan comes to, or it fails with the report of the plan and has changed nothing but the generator. -/
def Realizes (m : Machine) (work : Work Machine (Option Event × Flow)) (plan : Evaluation Action) : Prop :=
  ∀ generator, (work >>= follow).runFrom { m with generator } =
    match plan.runFrom generator with
    | (.ok action, next) =>
        (.ok (carryOut { m with generator := next } action).1,
          (carryOut { m with generator := next } action).2)
    | (.error problem, next) => (.error problem, { m with generator := next })

namespace Realizes

variable {m : Machine} {α : Type}

/-- Work that is done without a check does what an action does. -/
theorem pure {done : Option Event × Flow} {action : Action}
    (same : ∀ generator, (follow done).runFrom { m with generator } =
      (.ok (carryOut { m with generator } action).1, (carryOut { m with generator } action).2)) :
    Realizes m (Pure.pure done) (Pure.pure action) := by
  intro generator
  simp only [pure_bind, Work.runFrom_pure]
  exact same generator

theorem operand {e : Expression} {rest : Float → Work Machine (Option Event × Flow)}
    {plan : Float → Evaluation Action} (h : ∀ x, Realizes m (rest x) (plan x)) :
    Realizes m (Machine.operand e >>= rest) (e.value m.memory >>= plan) := by
  intro generator
  have evaluated : (Machine.operand e).runFrom { m with generator } =
      (((e.value m.memory).runFrom generator).1,
        { m with generator := ((e.value m.memory).runFrom generator).2 }) := rfl
  simp only [bind_assoc, Work.runFrom_bind (Machine.operand e), evaluated,
    Work.runFrom_bind (e.value m.memory)]
  rcases (e.value m.memory).runFrom generator with ⟨outcome, next⟩
  cases outcome with
  | ok x => exact h x next
  | error problem => rfl

/-- The last check of a command, and what it does once it is passed. -/
theorem checked {β : Type} {work : Work Machine β} {check : Machine → Except Diagnostic α}
    {change : Machine → α → β × Machine} {rest : β → Option Event × Flow} {result : Except Diagnostic α}
    {action : α → Action} (checksFirst : work.ChecksFirst check change)
    (found : ∀ generator, check { m with generator } = result)
    (same : ∀ generator a,
      (follow (rest (change { m with generator } a).1)).runFrom (change { m with generator } a).2 =
        (.ok (carryOut { m with generator } (action a)).1, (carryOut { m with generator } (action a)).2)) :
    Realizes m (work >>= fun b => Pure.pure (rest b))
      (Work.check result >>= fun a => Pure.pure (action a)) := by
  intro generator
  simp only [bind_assoc, pure_bind, Work.runFrom_bind work, checksFirst { m with generator }, found,
    Work.runFrom_bind (Work.check result), Work.runFrom_check]
  cases result with
  | ok a => exact same generator a
  | error problem => rfl

end Realizes

theorem addressOf_checksFirst (target : Label) :
    ChecksFirst (addressOf target) (·.program.addressOf target) fun m address => (address, m) := by
  intro m
  cases found : m.program.addressOf target with
  | ok address => simp [addressOf, Work.runFrom_bind, found]
  | error problem => simp [addressOf, Work.runFrom_bind, found]

/-- A command works in place as it is planned. -/
theorem work_realizes (m : Machine) (command : Command) :
    Realizes m (work command) (command.plan m.program m.memory m.canvas) := by
  have figure (f : Figure) : Realizes m
      (do onCanvas (Canvas.draw f); pure (none, .advance)) (Command.planFigure m.canvas f) :=
    .checked ((Canvas.draw_checksFirst f).within fun _ => rfl) (fun _ => rfl) fun _ _ => rfl
  have jump (target : Label) : Realizes m
      (do let address ← addressOf target; pure (none, .jump address))
      (do let address ← Work.check (m.program.addressOf target); pure (.jump address)) :=
    .checked (addressOf_checksFirst target) (fun _ => rfl) fun _ _ => rfl
  cases command with
  | dim name length =>
      exact .checked ((Memory.dimensioning_checksFirst name length).within fun _ => rfl) (fun _ => rfl)
        fun _ _ => rfl
  | drawStart width height =>
      exact .operand fun x => .operand fun y =>
        .checked ((Canvas.start_checksFirst x y).within fun _ => rfl) (fun _ => rfl) fun _ _ => rfl
  | drawFinish =>
      exact .checked (Canvas.finish_checksFirst.within fun _ => rfl) (fun _ => rfl) fun _ _ => rfl
  | halt => exact .pure fun _ => rfl
  | goto target => exact jump target
  | branch lhs comparison rhs target =>
      refine .operand fun x => .operand fun y => ?_
      split
      · exact jump target
      · exact .pure fun _ => rfl
  | input name =>
      intro generator
      rw [Command.plan_input]
      simp only [work, Memory.locate, Work.runFrom_bind, Work.runFrom_get]
      by_cases array : m.memory.isArray name = true
      · simp only [if_pos array]
        rfl
      · simp only [if_neg array]
        rfl
  | assign place value =>
      exact .operand fun x =>
        .checked ((Memory.writing_checksFirst place x).within fun _ => rfl) (fun _ => rfl) fun _ _ => rfl
  | line x1 y1 x2 y2 color | rectangle x1 y1 x2 y2 color filled =>
      exact .operand fun _ => .operand fun _ => .operand fun _ => .operand fun _ => figure _
  | plot x y radius color filled =>
      exact .operand fun _ => .operand fun _ => .operand fun _ => figure _
  | print value => exact .operand fun x => .pure fun _ => rfl
  | printText text => exact .pure fun _ => rfl

/-- Planning a statement and then carrying out its action comes to working it off in place. -/
theorem stepInPlace_eq (m : Machine) (s : Statement) :
    (stepInPlace s).runFrom m = (.ok (m.step s).1, (m.step s).2) := by
  have caught : (stepInPlace s).runFrom m =
      (tryCatch (work s.command >>= follow) (giveUp s.label)).runFrom m.advance := rfl
  have worked : (work s.command >>= follow).runFrom m.advance = _ :=
    work_realizes m.advance s.command m.generator
  rcases plan : m.planned s.command with ⟨outcome, next⟩
  have moved : (s.command.plan m.advance.program m.advance.memory m.advance.canvas).runFrom m.generator =
      (outcome, next) := plan
  rw [caught, Work.runFrom_tryCatch, worked, moved, step, plan]
  cases outcome with
  | ok action => rfl
  | error problem => rfl

end Machine

end Plotline

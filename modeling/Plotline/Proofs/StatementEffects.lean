/-
Module: Plotline.Proofs.StatementEffects
Layer: Proofs
Purpose: What one statement changes. A statement that fails changes no variable: every check comes before the
  first write (`Machine.stepInPlace_eq`), so all that is left of it is its report, and a machine that has
  stopped without a drawing. A statement that succeeds has one of the effects listed by `Visit.Effect`, each
  of which names the only part of the machine that may differ: an assignment one slot, a new array its own
  name, an input what the machine waits for, a drawing statement the canvas and a jump the next address.
Main exports: Memory.WritesOnly, Memory.AddsOnly, Visit.Effect, Machine.planned_branch,
  Visit.effect_of_planned, Machine.memory_until_answer, Machine.statement_changes_its_part
-/
import Plotline.Proofs.DrawnDocument
import Plotline.Proofs.InternalErrors

namespace Plotline

/-! ### Changes of the variables -/

namespace Memory

/-- The variable that a slot belongs to. -/
def Slot.name : Slot → String
  | .scalar name | .element name _ => name

/-- The variables after a number has been written into one slot and nothing else. -/
structure WritesOnly (m : Memory) (slot : Slot) (x : Float) (next : Memory) : Prop where
  stored : next.numberAt? slot = some x
  slots : ∀ other ≠ slot, next.numberAt? other = m.numberAt? other
  cells : ∀ name ≠ slot.name, next.cells[name]? = m.cells[name]?
  lengths : next.lengths = m.lengths

/-- The variables after one array of zeros has been added under a name that nothing had, and nothing else. -/
structure AddsOnly (m : Memory) (name : String) (length : Nat) (next : Memory) : Prop where
  free : m.cells[name]? = none ∧ m.lengths[name]? = none
  declared : next.lengths[name]? = some length
  zeros : next.cells[name]? = some (Array.replicate length 0.0)
  others : ∀ other ≠ name, next.cells[other]? = m.cells[other]? ∧ next.lengths[other]? = m.lengths[other]?

variable {m : Memory}

theorem writesOnly_put {place : Variable} {slot : Slot} (located : m.locate place = .ok slot) (x : Float) :
    m.WritesOnly slot x (m.put slot x) where
  stored := by rw [numberAt?_put located, if_pos rfl]
  slots other apart := by rw [numberAt?_put located, if_neg apart]
  cells name apart := by
    cases slot with
    | scalar own => exact (cells_put_scalar m own x name).trans (if_neg (Ne.symm apart))
    | element own offset => exact (cells_put_element m own offset x name).trans (if_neg (Ne.symm apart))
  lengths := by cases slot <;> rfl

/-- In a coherent memory a name that stores nothing is no array either. -/
theorem IsCoherent.lengths_eq_none (coherent : m.IsCoherent) {name : String}
    (nothing : m.cells[name]? = none) : m.lengths[name]? = none := by
  cases declared : m.lengths[name]? with
  | none => rfl
  | some length =>
      obtain ⟨values, stored, _⟩ := coherent name length declared
      cases nothing.symm.trans stored

theorem addsOnly_addArray (coherent : m.IsCoherent) {name : String} {length : Nat}
    (checked : m.canDimension name length = .ok ()) :
    m.AddsOnly name length (m.addArray name length) where
  free := by
    have nothing : m.cells[name]? = none := by simpa [isUsed] using (canDimension_eq_ok.1 checked).1
    exact ⟨nothing, coherent.lengths_eq_none nothing⟩
  declared := by simp [addArray]
  zeros := by simp [addArray]
  others other apart := by simp [addArray, Std.HashMap.getElem?_insert, Ne.symm apart]

end Memory

/-! ### The effect of a statement -/

/-- What a visited statement that succeeds does: the event it gives, and what becomes of the machine that has
    moved on to the next address. -/
inductive Visit.Effect (v : Visit) (moved : Machine) : Option Event → Machine → Prop where
  | assign {place : Variable} {value : Expression} {slot : Memory.Slot} {x : Float} {memory : Memory}
      (command : v.statement.command = .assign place value) (evaluated : v.Evaluates [value] [x])
      (located : v.machine.memory.locate place = .ok slot)
      (writes : v.machine.memory.WritesOnly slot x memory) : Effect v moved none { moved with memory }
  | dim {name : String} {length : Nat} {memory : Memory} (command : v.statement.command = .dim name length)
      (adds : v.machine.memory.AddsOnly name length memory) : Effect v moved none { moved with memory }
  | input {name : String} (command : v.statement.command = .input name) :
      Effect v moved (some (.input Machine.prompt)) { moved with state := .waiting name }
  | start {width height : Float} (starts : v.Starts width height) :
      Effect v moved none { moved with canvas := .blank width height }
  | figure {figure : Figure} (draws : v.Draws figure) :
      Effect v moved none { moved with canvas := v.machine.canvas.add figure }
  | finish (command : v.statement.command = .drawFinish) :
      Effect v moved (some (.drawing v.machine.canvas.document)) { moved with canvas := .empty }
  | goto {target : Label} {address : Nat} (command : v.statement.command = .goto target)
      (found : v.machine.program.addressOf target = .ok address) :
      Effect v moved none { moved with pc := address }
  | jump {lhs rhs : Expression} {comparison : Comparison} {target : Label} {x y : Float} {address : Nat}
      (command : v.statement.command = .branch lhs comparison rhs target)
      (evaluated : v.Evaluates [lhs, rhs] [x, y]) (holds : comparison.holds x y = true)
      (found : v.machine.program.addressOf target = .ok address) :
      Effect v moved none { moved with pc := address }
  | pass {lhs rhs : Expression} {comparison : Comparison} {target : Label} {x y : Float}
      (command : v.statement.command = .branch lhs comparison rhs target)
      (evaluated : v.Evaluates [lhs, rhs] [x, y]) (fails : comparison.holds x y = false) :
      Effect v moved none moved
  | halt (command : v.statement.command = .halt) :
      Effect v moved (some .ended) { moved with state := .stopped }
  | print {value : Expression} {x : Float} (command : v.statement.command = .print value)
      (evaluated : v.Evaluates [value] [x]) :
      Effect v moved (some (.print (Number.text x ++ "\n"))) moved
  | printText {text : String} (command : v.statement.command = .printText text) :
      Effect v moved (some (.print (text ++ "\n"))) moved

namespace Machine

variable {m : Machine} {lhs rhs : Expression} {comparison : Comparison} {target : Label}

/-- A conditional jump looks its label up after its operands are known, and only if the comparison holds. -/
theorem planned_branch {x y : Float} {last : Generator}
    (evaluated : (Expression.values m.memory [lhs, rhs]).runFrom m.generator = (.ok [x, y], last)) :
    m.planned (.branch lhs comparison rhs target) =
      (if comparison.holds x y then (m.program.addressOf target).map .jump else .ok .proceed, last) := by
  obtain ⟨a, _, first, rest⟩ := Work.runFrom_bind_ok evaluated
  obtain ⟨_, _, rest, same⟩ := Work.runFrom_bind_ok rest
  obtain ⟨b, _, second, rest⟩ := Work.runFrom_bind_ok rest
  cases rest
  cases same
  simp only [planned, Command.plan, Work.runFrom_bind, first, second]
  split
  · simp only [Work.runFrom_bind, Work.runFrom_check]
    cases m.program.addressOf target <;> rfl
  · rfl

/-- The operands of a conditional jump that was planned. -/
theorem evaluated_of_planned_branch {action : Action} {last : Generator}
    (planned : m.planned (.branch lhs comparison rhs target) = (.ok action, last)) :
    ∃ x y next, (Expression.values m.memory [lhs, rhs]).runFrom m.generator = (.ok [x, y], next) := by
  obtain ⟨x, _, first, planned⟩ := Work.runFrom_bind_ok planned
  obtain ⟨y, next, second, _⟩ := Work.runFrom_bind_ok planned
  exact ⟨x, y, next, Expression.runFrom_values_cons first
    (Expression.runFrom_values_cons second (Expression.runFrom_values_nil _ _))⟩

end Machine

/-- Carrying out what was planned has the effect of the statement. -/
theorem Visit.effect_of_planned {v : Visit} (coherent : v.machine.memory.IsCoherent) {action : Action}
    {generator : Generator} (planned : v.machine.planned v.statement.command = (.ok action, generator)) :
    let moved := { v.machine.advance with generator }
    v.Effect moved (moved.carryOut action).1 (moved.carryOut action).2 := by
  intro moved
  rcases v with ⟨m, label, command⟩
  cases Command.plan_returns command m.generator action generator planned with
  | dim checked => exact .dim rfl (Memory.addsOnly_addArray coherent checked)
  | start x y closed => exact .start (Visit.starts_of_planned planned)
  | finish opened => exact .finish rfl
  | halt => exact .halt rfl
  | goto found => exact .goto rfl found
  | @branch _ _ comparison _ _ found =>
      obtain ⟨x, y, next, evaluated⟩ := Machine.evaluated_of_planned_branch planned
      have holds : comparison.holds x y = true := by
        by_contra fails
        rw [Machine.planned_branch evaluated, if_neg fails] at planned
        cases planned
      exact .jump rfl (congrArg Prod.fst evaluated) holds found
  | @pass _ _ comparison _ =>
      obtain ⟨x, y, next, evaluated⟩ := Machine.evaluated_of_planned_branch planned
      have fails : comparison.holds x y = false := by
        by_contra holds
        rw [Machine.planned_branch evaluated, if_pos (by simpa using holds)] at planned
        obtain ⟨_, _, same⟩ := map_eq_ok.1 (congrArg Prod.fst planned)
        cases same
      exact .pass rfl (congrArg Prod.fst evaluated) fails
  | input located => exact .input rfl
  | assign x located =>
      obtain ⟨y, _, first, planned⟩ := Work.runFrom_bind_ok planned
      obtain ⟨_, _, _, planned⟩ := Work.runFrom_bind_ok planned
      cases planned
      have evaluated := Expression.runFrom_values_cons first (Expression.runFrom_values_nil _ _)
      exact .assign rfl (congrArg Prod.fst evaluated) located (Memory.writesOnly_put located x)
  | figure f isFigure opened => exact .figure (Visit.draws_of_planned planned)
  | print x =>
      obtain ⟨y, _, first, planned⟩ := Work.runFrom_bind_ok planned
      have sameText : Number.text y = Number.text x := by
        injection planned with printed
        injection printed with printed
        injection printed
      have evaluated := Expression.runFrom_values_cons first (Expression.runFrom_values_nil _ _)
      have printed : Visit.Effect _ moved _ _ := .print rfl (congrArg Prod.fst evaluated)
      rw [sameText] at printed
      exact printed
  | printText => exact .printText rfl

/-- An input that succeeds only makes the machine wait. -/
theorem Visit.Effect.of_input {v : Visit} {moved next : Machine} {event : Option Event} {name : String}
    (effect : v.Effect moved event next) (command : v.statement.command = .input name) :
    next = { moved with state := .waiting name } := by
  cases effect with
  | input same =>
      cases command.symm.trans same
      rfl
  | start starts =>
      obtain ⟨_, _, other, _⟩ := starts
      cases command.symm.trans other
  | figure draws =>
      have isFigure := draws.isFigure
      rw [command] at isFigure
      cases isFigure
  | assign other | dim other | finish other | goto other | jump other | pass other | halt other
  | print other | printText other => cases command.symm.trans other

namespace Machine

/-! ### Waiting for an answer -/

/-- A call that neither answers nor loads leaves the variables of a machine that does not run alone. -/
theorem idle_call {m : Machine} (idle : m.state ≠ .running) {c : Call} (noAnswer : ∀ text, c ≠ .enter text)
    (sameProgram : ∀ listing, c ≠ .load listing) :
    (m.call c).2.state ≠ .running ∧ (m.call c).2.memory = m.memory := by
  cases c with
  | load listing => exact absurd rfl (sameProgram listing)
  | enter text => exact absurd rfl (noAnswer text)
  | execute budget =>
      have notReady : ¬ m.IsReady := fun ready => idle ready.2
      obtain ⟨redo, same⟩ := execute_not_ready_eq notReady budget
      simp only [call]
      rw [same]
      exact ⟨idle, rfl⟩
  | interrupt =>
      simp only [call, interrupt]
      split
      · exact ⟨by simp [fail, abandon], rfl⟩
      · exact ⟨idle, rfl⟩
  | fail problem => exact ⟨by simp [call, fail, abandon], rfl⟩

/-- The same for any number of such calls. -/
theorem memory_until_answer {m : Machine} (idle : m.state ≠ .running) (calls : List Call)
    (noAnswer : ∀ text, .enter text ∉ calls) (sameProgram : ∀ listing, .load listing ∉ calls) :
    (m.after calls).memory = m.memory := by
  induction calls generalizing m with
  | nil => rfl
  | cons c rest ih =>
      obtain ⟨notLoad, noLoads⟩ := loadsNothing_cons sameProgram
      have notEnter : ∀ text, c ≠ .enter text := by
        rintro text rfl
        exact noAnswer text List.mem_cons_self
      obtain ⟨stillIdle, same⟩ := idle_call idle notEnter notLoad
      have noAnswers : ∀ text, .enter text ∉ rest := fun text mem =>
        noAnswer text (List.mem_cons_of_mem c mem)
      exact (ih stillIdle noAnswers noLoads).trans same

/-! ### One statement -/

/-- Within a budget of one a ready machine carries out the statement at its address and nothing else. -/
theorem IsReady.execute_one {m : Machine} (ready : m.IsReady) {s : Statement}
    (found : m.program.statement? m.pc = some s) :
    m.execute 1 = ((m.step s).1.getD .running, (m.step s).2) := by
  rw [ready.execute_eq_run]
  rcases hstep : m.step s with ⟨event, next⟩
  cases event with
  | none => rw [run_silent found hstep]; rfl
  | some event => rw [run_event found hstep]; rfl

/-- A statement that fails leaves its report, under its label, and a machine that has moved on, has stopped
    and has no drawing. -/
theorem step_failed {m : Machine} {s : Statement} {problem : Diagnostic}
    (failed : Visit.problem? ⟨m, s⟩ = some problem) :
    m.step s = (some (.errors [problem]),
      { m.advance with generator := (m.step s).2.generator, state := .stopped, canvas := .empty }) := by
  rcases hstep : m.step s with ⟨event, next⟩
  rcases step_cases hstep with ⟨_, _, planned, _⟩ | ⟨cause, generator, planned, rfl, rfl⟩
  · simp [Visit.problem?, planned] at failed
  · simp only [Visit.problem?, planned, Option.some.injEq] at failed
    rw [failed]
    rfl

theorem carryOut_generator (m : Machine) (action : Action) :
    (m.carryOut action).2.generator = m.generator := by
  cases action <;> rfl

/-- A statement that does not fail has its effect on the machine that has moved on. -/
theorem step_effect {m : Machine} (coherent : m.memory.IsCoherent) {s : Statement}
    (well : Visit.problem? ⟨m, s⟩ = none) :
    Visit.Effect ⟨m, s⟩ { m.advance with generator := (m.step s).2.generator } (m.step s).1
      (m.step s).2 := by
  rcases hstep : m.step s with ⟨event, next⟩
  rcases step_cases hstep with ⟨action, generator, planned, carried⟩ | ⟨_, _, planned, _⟩
  · have effect := Visit.effect_of_planned (v := ⟨m, s⟩) coherent planned
    have drawn := carryOut_generator { m.advance with generator } action
    dsimp only at effect
    rw [carried] at effect drawn
    rw [show next.generator = generator from drawn]
    exact effect
  · simp [Visit.problem?, planned] at well

/-- A failing statement changes no data, and a succeeding one changes only its own part. Take any calls on a
    new machine that then runs, and the statement at its address; if nothing is pending, going on within a
    budget of one carries out this statement alone. Worked off in place, with every write where it is made,
    the statement leads to the same event and the same machine. If it fails, the variables, the program and
    all else are as before, except that the machine has moved on to the next address and has stopped, the
    drawing is gone and numbers may have been drawn; the answer is one report, under the label of the
    statement. If it succeeds, it has its effect on the machine that has moved on, and no other. A variable
    that was asked for, and every other one, stays as it was until an answer is given. -/
theorem statement_changes_its_part (generator : Generator) (calls : List Call) (s : Statement) :
    let m := (new generator).after calls
    let next := (m.step s).2
    let moved := { m with pc := m.pc + 1, last := some m.pc, generator := next.generator }
    m.state = .running → m.program.statement? m.pc = some s →
    (m.pending = [] → m.execute 1 = ((m.step s).1.getD .running, next)) ∧
    (stepInPlace s).runFrom m = (.ok (m.step s).1, next) ∧
    (∀ problem, Visit.problem? ⟨m, s⟩ = some problem →
      problem.label = some s.label ∧
      m.step s = (some (.errors [problem]), { moved with state := .stopped, canvas := .empty })) ∧
    (Visit.problem? ⟨m, s⟩ = none → Visit.Effect ⟨m, s⟩ moved (m.step s).1 next) ∧
    ∀ name, s.command = .input name →
      ∀ later, (∀ text, .enter text ∉ later) → (∀ listing, .load listing ∉ later) →
        (next.after later).memory = m.memory := by
  intro m next moved running found
  have coherent : m.memory.IsCoherent := coherent_isKept.calls [] calls .empty
  have effect (well : Visit.problem? ⟨m, s⟩ = none) : Visit.Effect ⟨m, s⟩ moved (m.step s).1 next :=
    step_effect coherent well
  refine ⟨fun nothing => IsReady.execute_one ⟨nothing, running⟩ found, stepInPlace_eq m s,
    fun problem failed => ⟨Visit.problem?_label failed, step_failed failed⟩, effect, ?_⟩
  intro name command later noAnswer sameProgram
  have asks : next.state ≠ .running ∧ next.memory = m.memory := by
    cases outcome : Visit.problem? ⟨m, s⟩ with
    | none =>
        rw [(effect outcome).of_input command]
        exact ⟨by simp, rfl⟩
    | some problem =>
        rw [show next = _ from congrArg Prod.snd (step_failed outcome)]
        exact ⟨by simp, rfl⟩
  exact (memory_until_answer asks.1 later noAnswer sameProgram).trans asks.2

/-- A drawing that a statement cuts short by calling a function that there is not. -/
def cutShort : List Call :=
  [.load (Listing.load "10 DRAW START 9, 9\n20 PRINT FOO(RND(1))\n30 DRAW FINISH\n"), .execute 1]

/-- The call fails after its argument was evaluated. The answer is the report, and the drawing is gone. -/
theorem statement_changes_its_part_cutShort :
    let m := (new (.constant 0)).after cutShort
    ∃ s, m.state = .running ∧ m.program.statement? m.pc = some s ∧ m.canvas.isOpen = true ∧
      m.execute 1 = (.errors [{ code := .unsupportedFunction, label := some "20", detail := "FOO" }],
        { m with
          pc := m.pc + 1, last := some m.pc, generator := (m.step s).2.generator, state := .stopped
          canvas := .empty }) := by
  intro m
  have running : m.state = .running := by decide +kernel
  obtain ⟨s, found⟩ : ∃ s, m.program.statement? m.pc = some s :=
    Option.isSome_iff_exists.1 (by decide +kernel)
  obtain ⟨alone, _, failing, _⟩ := statement_changes_its_part (.constant 0) cutShort s running found
  have visited : (m.program.statement? m.pc).bind (fun s => Visit.problem? ⟨m, s⟩) =
      some { code := .unsupportedFunction, label := some "20", detail := "FOO" } := by decide +kernel
  rw [found] at visited
  have stopped := (failing _ visited).2
  have reported := congrArg Prod.fst stopped
  have abandoned := congrArg Prod.snd stopped
  refine ⟨s, running, found, by decide +kernel, ?_⟩
  rw [alone (by decide +kernel), reported]
  exact Prod.ext rfl abandoned

end Machine

end Plotline

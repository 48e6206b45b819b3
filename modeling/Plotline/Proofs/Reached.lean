/-
Module: Plotline.Proofs.Reached
Layer: Proofs
Purpose: What holds of a machine after any calls in any order. `IsSound` relates a machine to the statements
  it has carried out since a program was last loaded: the next address is in the program or right past its
  end, the last address is that of the statement carried out last, a machine that waits has just carried out
  the input it waits for and can store the answer, and reports are pending in a machine that has not stopped
  only before its first statement. One statement keeps this (`IsSound.step`), and so does everything else a
  caller can ask for, hence it holds after any calls. So a report without a label, made by a caller, gets
  the label of the statement carried out last.
Main exports: Machine.IsSound, Machine.IsSound.step, Machine.IsSound.isKept, Machine.IsSound.calls,
  Machine.after_any_calls
-/
import Plotline.Proofs.History
import Plotline.Proofs.LabelIndex
import Plotline.Proofs.Plan
import Plotline.Proofs.Slots

namespace Plotline

namespace Machine

/-- The machine has just carried out an input into the given variable, whose answer can be stored. -/
structure AwaitsAnswer (m : Machine) (name : String) : Prop where
  pending : m.pending = []
  asked : ∃ address label, m.last = some address ∧ m.pc = address + 1 ∧
    m.program.statement? address = some ⟨label, .input name⟩
  storable : m.memory.isArray name = false

/-- How a machine stands after it has carried out some statements of its program. -/
structure IsSound (ran : List Visit) (m : Machine) : Prop where
  program : ∃ statements, m.program = .ofStatements statements
  pc_le : m.pc ≤ m.program.size
  last : m.last = ran.getLast?.map (·.machine.pc)
  ran_mem : ∀ v ∈ ran, m.program.statement? v.machine.pc = some v.statement
  waiting : ∀ name, m.state = .waiting name → m.AwaitsAnswer name
  fresh : m.isRunning = true → m.pending ≠ [] → ran = [] ∧ m.pc = 0

/-! ### Looking things up -/

theorem locate_of_not_array {memory : Memory} {name : String} (h : memory.isArray name = false) :
    memory.locate (.scalar name) = .ok (.scalar name) :=
  Memory.locate_scalar_eq_ok.2 ⟨h, rfl⟩

theorem lt_size_of_statement? {p : Program} {address : Nat} {s : Statement}
    (found : p.statement? address = some s) : address < p.size :=
  (Array.getElem?_eq_some_iff.1 found).1

namespace IsSound

variable {ran : List Visit} {m next : Machine}

/-- Of a machine that neither waits nor runs with reports pending only the program and the two addresses
    matter. -/
theorem of_frame (sound : IsSound ran m) (program : next.program = m.program)
    (last : next.last = m.last) (pc_le : next.pc ≤ m.program.size)
    (notWaiting : ∀ name, next.state ≠ .waiting name)
    (quiet : next.isRunning = true → next.pending = []) : IsSound ran next where
  program := by rw [program]; exact sound.program
  pc_le := by rw [program]; exact pc_le
  last := last.trans sound.last
  ran_mem := by rw [program]; exact sound.ran_mem
  waiting name waiting := absurd waiting (notWaiting name)
  fresh running pending := absurd (quiet running) pending

/-! ### One statement -/

/-- Moving on to the next address is recorded as a visit. -/
theorem advance (sound : IsSound ran m) (ready : m.IsReady) {s : Statement}
    (found : m.program.statement? m.pc = some s) (generator : Generator) :
    IsSound (ran ++ [⟨m, s⟩]) { m.advance with generator } where
  program := sound.program
  pc_le := lt_size_of_statement? found
  last := by simp [Machine.advance]
  ran_mem := by
    intro v mem
    rcases List.mem_append.1 mem with earlier | here
    · exact sound.ran_mem v earlier
    · cases List.mem_singleton.1 here
      exact found
  waiting name waiting := by
    have running : m.state = .waiting name := waiting
    rw [ready.2] at running
    cases running
  fresh _ pending := absurd ready.1 pending

/-- Carrying out one statement keeps a machine sound. Only a jump chooses the next address, and the index of
    labels keeps it inside the program; only an input makes the machine wait, and it has looked whether its
    variable is an array. -/
theorem step (sound : IsSound ran m) (ready : m.IsReady) {s : Statement}
    (found : m.program.statement? m.pc = some s) : IsSound (ran ++ [⟨m, s⟩]) (m.step s).2 := by
  rcases s with ⟨label, command⟩
  rcases hstep : m.step ⟨label, command⟩ with ⟨event, next⟩
  rcases step_cases hstep with ⟨action, generator, planned, carried⟩ | ⟨_, generator, _, _, rfl⟩
  · have leads : command.LeadsTo m.program m.memory m.canvas action :=
      Command.plan_returns command m.generator action generator planned
    have moved := sound.advance ready found generator
    have notWaiting : ∀ name, m.state ≠ .waiting name := by
      intro name
      rw [ready.2]
      simp
    cases leads with
    | goto target | branch target =>
        cases carried
        obtain ⟨statements, isProgram⟩ := sound.program
        rw [isProgram] at target
        have inside := Program.addressOf_lt_size target
        rw [← isProgram] at inside
        exact moved.of_frame rfl rfl (Nat.le_of_lt inside) notWaiting fun _ => ready.1
    | @input name slot located =>
        cases carried
        refine { moved with waiting := ?_, fresh := fun _ pending => absurd ready.1 pending }
        intro other waiting
        cases waiting
        exact ⟨ready.1, ⟨m.pc, label, rfl, rfl, found⟩, (Memory.locate_scalar_eq_ok.1 located).1⟩
    | halt =>
        cases carried
        exact moved.of_frame rfl rfl moved.pc_le (by simp) fun _ => ready.1
    | _ =>
        cases carried
        exact moved.of_frame rfl rfl moved.pc_le notWaiting fun _ => ready.1
  · have moved := sound.advance ready found generator
    exact moved.of_frame rfl rfl moved.pc_le (by simp [abandon]) (by simp [abandon, isRunning])

/-! ### Calls -/

theorem load (m : Machine) (listing : Listing) : IsSound [] (m.load listing) where
  program := ⟨listing.statements, rfl⟩
  pc_le := Nat.zero_le _
  last := rfl
  ran_mem := by simp
  waiting name waiting := by simp [Machine.load] at waiting
  fresh _ _ := ⟨rfl, rfl⟩

theorem fail (sound : IsSound ran m) (problem : Diagnostic) : IsSound ran (m.fail problem) :=
  sound.of_frame rfl rfl sound.pc_le (by simp [Machine.fail, abandon])
    (by simp [Machine.fail, abandon, isRunning])

/-- Handing out the reports, and whether an answer was refused, have no part in how a machine stands. -/
theorem quiet (sound : IsSound ran m) (redo : Bool) : IsSound ran { m with pending := [], redo } := by
  refine { sound with waiting := ?_, fresh := fun _ pending => absurd rfl pending }
  intro name waiting
  have awaits := sound.waiting name waiting
  exact ⟨rfl, awaits.asked, awaits.storable⟩

/-- An answer to an input that waits is stored, or refused; it never fails. -/
theorem enter (sound : IsSound ran m) (text : String) : IsSound ran (m.enter text).2 := by
  unfold Machine.enter
  split
  · rename_i name waiting
    have awaits := sound.waiting name waiting
    split
    · refine { sound with waiting := ?_ }
      intro other same
      have others := sound.waiting other same
      exact ⟨others.pending, others.asked, others.storable⟩
    · rw [locate_of_not_array awaits.storable]
      exact sound.of_frame rfl rfl sound.pc_le (by simp) fun _ => awaits.pending
  · exact sound

theorem isKept : IsKept IsSound where
  load := load
  step sound ready found := sound.step ready found
  stop sound ready := sound.of_frame rfl rfl sound.pc_le (by simp) fun _ => ready.1
  fail problem sound := sound.fail problem
  quiet redo sound := sound.quiet redo
  enter text sound := sound.enter text

/-- Any calls keep a machine sound, with the visits since a program was last loaded. -/
theorem calls (calls : List Call) (sound : IsSound ran m) :
    IsSound (m.visitsSinceLoad ran calls) (m.after calls) :=
  isKept.calls ran calls sound

/-- A machine with no program stands well, having carried out nothing. -/
theorem new (generator : Generator) : IsSound [] (Machine.new generator) where
  program := ⟨[], rfl⟩
  pc_le := Nat.le_refl _
  last := rfl
  ran_mem := by simp
  waiting name waiting := by simp [Machine.new] at waiting
  fresh running _ := by simp [Machine.new, isRunning] at running

/-! ### Labels of reports -/

/-- A report is put under the label of the statement carried out last. -/
theorem fail_pending {earlier : List Visit} {v : Visit} (sound : IsSound (earlier ++ [v]) m)
    (problem : Diagnostic) :
    (m.fail problem).pending = m.pending ++ [problem.inLabel v.statement.label] := by
  have last : m.last = some v.machine.pc := by simpa using sound.last
  have found := sound.ran_mem v (by simp)
  simp [Machine.fail, last, found]

end IsSound

/-- How a machine stands after any calls, in any order. Its next address is in its program or right past the
    end, and its last address is that of a statement. If it waits, nothing is pending, it has just carried
    out the input it waits for, and an answer that is a number is always accepted and stored. If it has not
    stopped and reports are pending, it has carried out nothing since it was loaded. And a report without a
    label, made by the caller after at least one statement, gets the label of the statement carried out
    last. -/
theorem after_any_calls (generator : Generator) (calls : List Call) :
    let m := (new generator).after calls
    let ran := (new generator).visitsSinceLoad [] calls
    m.pc ≤ m.program.size ∧
    (∀ address, m.last = some address → ∃ s, m.program.statement? address = some s) ∧
    (∀ name, m.state = .waiting name →
      m.pending = [] ∧
      (∃ address label, m.last = some address ∧ m.pc = address + 1 ∧
        m.program.statement? address = some ⟨label, .input name⟩) ∧
      m.memory.isArray name = false ∧
      (∀ x, ∃ memory, m.memory.store name x = .ok memory) ∧
      ∀ text x, answer? text = some x → (m.enter text).1 = true) ∧
    (m.isRunning = true → m.pending ≠ [] → ran = [] ∧ m.pc = 0 ∧ m.last = none) ∧
    ∀ earlier v, ran = earlier ++ [v] →
      (∀ problem, problem.label = none →
        (m.fail problem).pending =
          m.pending ++ [{ problem with label := some v.statement.label }]) ∧
      (m.isRunning = true →
        m.interrupt.pending =
          m.pending ++ [{ code := .interrupted, label := some v.statement.label }]) := by
  intro m ran
  have sound : IsSound ran m := (IsSound.new generator).calls calls
  refine ⟨sound.pc_le, ?_, ?_, ?_, ?_⟩
  · intro address last
    rw [sound.last] at last
    obtain ⟨v, isLast, rfl⟩ := Option.map_eq_some_iff.1 last
    exact ⟨v.statement, sound.ran_mem v (List.mem_of_getLast? isLast)⟩
  · intro name waiting
    have awaits := sound.waiting name waiting
    have located := locate_of_not_array awaits.storable
    refine ⟨awaits.pending, awaits.asked, awaits.storable, ?_, ?_⟩
    · intro x
      exact ⟨_, by rw [Memory.store, Memory.assign, located]; rfl⟩
    · intro text x isNumber
      simp [enter, waiting, isNumber, located]
  · intro running pending
    obtain ⟨nothing, start⟩ := sound.fresh running pending
    refine ⟨nothing, start, ?_⟩
    rw [sound.last, nothing]
    rfl
  · intro earlier v split
    rw [split] at sound
    constructor
    · intro problem unlabelled
      rw [sound.fail_pending problem, Diagnostic.inLabel, unlabelled]
      rfl
    · intro running
      rw [interrupt, if_pos running, sound.fail_pending]
      rfl

/-- A drawing that could not be kept is reported under the label of the statement that finished it. -/
example :
    (((new (.constant 0)).after
      [.load (Listing.load "10 DRAW START 9, 9\n20 DRAW FINISH\n30 END\n"), .execute 9]).fail
        { code := .cantCreateFile }).pending =
      [{ code := .cantCreateFile, label := some "20" }] := by
  decide +kernel

end Machine

end Plotline

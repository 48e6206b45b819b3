/-
Module: Plotline.Machine
Layer: Machine
Purpose: The machine that runs a program. It never blocks: it carries out statements up to a budget and
  answers with an event as soon as its caller has something to do, be it printing, answering an input,
  keeping a drawing or showing reports. Reports that are pending come before everything else.
Main exports: State, Event, Machine, Machine.load, Machine.execute, Machine.enter, Machine.interrupt,
  Machine.fail, Machine.executeNotes, Call, Reply, Machine.call
-/
import Plotline.Action
import Plotline.Listing

namespace Plotline

/-- Whether a machine has something to carry out. -/
inductive State where
  | stopped
  | running
  /-- An input waits for the value of a variable. -/
  | waiting (name : String)
  deriving DecidableEq, Repr, Inhabited

/-- What a machine answers. -/
inductive Event where
  | errors (problems : List Diagnostic)
  | print (text : String)
  | input (prompt : String)
  | drawing (document : String)
  /-- The program ended itself. -/
  | ended
  /-- The budget is used up. -/
  | running
  /-- There is nothing to carry out. -/
  | stopped
  deriving DecidableEq, Repr

/-- A machine: its program, the address of the next statement and of the one carried out last, what it is
    doing, its variables, drawing and random generator, the reports nobody has seen yet, and whether the
    last answer to an input was refused. -/
structure Machine where
  generator : Generator
  program : Program := .empty
  pc : Nat := 0
  last : Option Nat := none
  state : State := .stopped
  memory : Memory := .empty
  canvas : Canvas := .empty
  pending : List Diagnostic := []
  redo : Bool := false
  deriving Inhabited

namespace Machine

/-- What is shown before an answer is typed in. -/
def prompt : String := "# "

/-- What is shown after an answer was refused. -/
def redoText : String := "?REDO FROM START\n"

/-- A machine with no program. -/
def new (generator : Generator) : Machine :=
  { generator }

/-- The program has not stopped: it runs or waits for an answer. -/
def isRunning (m : Machine) : Bool :=
  m.state != .stopped

/-- Makes a listing the program, to be run from its first statement with no variables. The reports of the
    listing are pending. Only the generator is kept. -/
def load (m : Machine) (listing : Listing) : Machine :=
  { generator := m.generator
    program := Program.ofStatements listing.statements
    state := .running
    pending := listing.errors }

/-! ### Statements -/

/-- Carries out an action. -/
def carryOut (m : Machine) : Action → Option Event × Machine
  | .proceed => (none, m)
  | .jump address => (none, { m with pc := address })
  | .halt => (some .ended, { m with state := .stopped })
  | .put slot x => (none, { m with memory := m.memory.put slot x })
  | .addArray name length => (none, { m with memory := m.memory.addArray name length })
  | .print text => (some (.print (text ++ "\n")), m)
  | .ask name => (some (.input prompt), { m with state := .waiting name })
  | .startDrawing width height => (none, { m with canvas := .blank width height })
  | .draw figure => (none, { m with canvas := m.canvas.add figure })
  | .finishDrawing => (some (.drawing m.canvas.document), { m with canvas := .empty })

/-- The action of a command, and the generator after planning it. -/
def planned (m : Machine) (command : Command) : Except Diagnostic Action × Generator :=
  (command.plan m.program m.memory m.canvas).runFrom m.generator

/-- Moves on to the next address. -/
def advance (m : Machine) : Machine :=
  { m with last := some m.pc, pc := m.pc + 1 }

/-- Stops the program and drops its drawing. -/
def abandon (m : Machine) : Machine :=
  { m with state := .stopped, canvas := .empty }

/-- Carries out the statement at the current address. A statement that fails stops the program. -/
def step (m : Machine) (s : Statement) : Option Event × Machine :=
  match m.planned s.command with
  | (.ok action, generator) => carryOut { m.advance with generator } action
  | (.error problem, generator) =>
      (some (.errors [problem.inLabel s.label]), abandon { m.advance with generator })

/-- Carries out statements until one gives an event, the program has no more, or the budget is used up. -/
def run : Nat → Machine → Event × Machine
  | 0, m => (.running, m)
  | budget + 1, m =>
      match m.program.statement? m.pc with
      | none => (.stopped, { m with state := .stopped })
      | some s =>
          match m.step s with
          | (some event, next) => (event, next)
          | (none, next) => run budget next

/-- What the machine does next, within a budget of statements. -/
def execute (m : Machine) (budget : Nat) : Event × Machine :=
  match m.pending with
  | _ :: _ => (.errors m.pending, { m with pending := [] })
  | [] =>
      match m.state with
      | .stopped => (.stopped, m)
      | .waiting _ =>
          if m.redo then (.print redoText, { m with redo := false }) else (.input prompt, m)
      | .running => m.run budget

/-! ### The caller's side -/

/-- Stops the program with a report, which is put under the label of the statement carried out last. -/
def fail (m : Machine) (problem : Diagnostic) : Machine :=
  let labelled :=
    match m.last.bind m.program.statement? with
    | some s => problem.inLabel s.label
    | none => problem
  { m.abandon with pending := m.pending ++ [labelled] }

/-- Stops a program that runs or waits. -/
def interrupt (m : Machine) : Machine :=
  if m.isRunning then m.fail { code := .interrupted } else m

/-- The number that an answer gives: any finite one, with blanks around it. -/
def answer? (text : String) : Option Float :=
  (Number.read? (String.ofList (Text.trim text.toList))).filter Number.isFinite

/-- Answers an input that waits. An answer that is no number is refused, and the input goes on waiting. -/
def enter (m : Machine) (text : String) : Bool × Machine :=
  match m.state with
  | .waiting name =>
      match answer? text with
      | none => (false, { m with redo := true })
      | some x =>
          match m.memory.locate (.scalar name) with
          | .error problem => (false, m.fail problem)
          | .ok slot => (true, { m with memory := m.memory.put slot x, state := .running })
  | _ => (false, m)

/-! ### The journal -/

/-- What carrying out a statement adds to the journal. -/
def stepNotes (m : Machine) (s : Statement) : List Note :=
  match (m.planned s.command).1 with
  | .ok (.jump address) => [.jump s.label address]
  | .ok .finishDrawing => [.drawing s.label (m.canvas.elements.size - 1)]
  | _ => []

/-- What running adds to the journal. -/
def runNotes : Nat → Machine → List Note
  | 0, _ => []
  | budget + 1, m =>
      match m.program.statement? m.pc with
      | none => []
      | some s =>
          m.stepNotes s ++
            match m.step s with
            | (some _, _) => []
            | (none, next) => runNotes budget next

/-- What the machine adds to the journal when it goes on. -/
def executeNotes (m : Machine) (budget : Nat) : List Note :=
  if m.pending.isEmpty && m.state == .running then m.runNotes budget else []

end Machine

/-! ### Calls -/

/-- What a caller can ask of a machine. -/
inductive Call where
  | load (listing : Listing)
  | execute (budget : Nat)
  | enter (text : String)
  | interrupt
  | fail (problem : Diagnostic)

/-- What a caller is told. -/
inductive Reply where
  | done
  | event (event : Event)
  | accepted (answer : Bool)
  deriving DecidableEq, Repr

namespace Machine

/-- Makes a call. -/
def call (m : Machine) : Call → Reply × Machine
  | .load listing => (.done, m.load listing)
  | .execute budget =>
      let (event, next) := m.execute budget
      (.event event, next)
  | .enter text =>
      let (accepted, next) := m.enter text
      (.accepted accepted, next)
  | .interrupt => (.done, m.interrupt)
  | .fail problem => (.done, m.fail problem)

end Machine

end Plotline

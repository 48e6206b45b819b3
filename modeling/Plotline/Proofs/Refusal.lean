/-
Module: Plotline.Proofs.Refusal
Layer: Proofs
Purpose: What becomes of the note that an answer was refused. Only a machine that waits with nothing pending
  looks at the note, so a machine with it and one without carry out the same statements
  (`Machine.run_withRedo`) and give the same replies until they are found waiting. An answer that is accepted
  leaves the note behind. If the caller has not gone on in between, the note is shown at a later input, once
  and in place of its prompt, and after that nothing is left of the refusal.
Main exports: Machine.withRedo, Machine.run_withRedo, Machine.enter_of_waiting, Machine.IsAsking,
  Machine.replies_withRedo, Machine.stale_refusal_replaces_one_prompt
-/
import Plotline.Proofs.Reports

namespace Plotline

namespace Machine

/-- The machine with the note whether the last answer was refused. -/
def withRedo (m : Machine) (redo : Bool) : Machine :=
  { m with redo }

theorem withRedo_of_eq {m : Machine} {redo : Bool} (same : m.redo = redo) : m.withRedo redo = m := by
  rw [← same]
  rfl

/-! ### Statements take no note -/

theorem carryOut_withRedo (m : Machine) (redo : Bool) (action : Action) :
    (m.withRedo redo).carryOut action =
      ((m.carryOut action).1, (m.carryOut action).2.withRedo redo) := by
  cases action <;> rfl

theorem step_withRedo (m : Machine) (redo : Bool) (s : Statement) :
    (m.withRedo redo).step s = ((m.step s).1, (m.step s).2.withRedo redo) := by
  rcases hstep : m.step s with ⟨event, next⟩
  have samePlan : (m.withRedo redo).planned s.command = m.planned s.command := rfl
  rcases step_cases hstep with ⟨action, generator, planned, carried⟩ | ⟨_, generator, planned, rfl, rfl⟩
  · have moved := carryOut_withRedo { m.advance with generator } redo action
    rw [carried] at moved
    rw [step, samePlan, planned]
    exact moved
  · rw [step, samePlan, planned]
    rfl

theorem withRedo_isUnseen (redo : Bool) (p : Program) : IsUnseen (·.withRedo redo) p where
  program _ := rfl
  pc _ := rfl
  stop _ := rfl
  step m _ s _ := step_withRedo m redo s

/-- A run neither looks at the note nor changes it. -/
theorem run_withRedo (budget : Nat) (m : Machine) (redo : Bool) :
    (m.withRedo redo).run budget = ((m.run budget).1, (m.run budget).2.withRedo redo) :=
  ((withRedo_isUnseen redo m.program).run budget).1

theorem run_redo (budget : Nat) (m : Machine) : (m.run budget).2.redo = m.redo := by
  have kept := run_withRedo budget m m.redo
  rw [withRedo_of_eq rfl] at kept
  rw [kept]
  rfl

/-! ### Answers -/

/-- An input that waits for a variable that can be written refuses what is no number and stores the rest. -/
theorem enter_of_waiting {m : Machine} {name : String} (waiting : m.state = .waiting name)
    (storable : m.memory.isArray name = false) (text : String) :
    m.enter text =
      match answer? text with
      | none => (false, m.withRedo true)
      | some x => (true, { m with memory := m.memory.put (.scalar name) x, state := .running }) := by
  have located := locate_of_not_array storable
  cases number : answer? text with
  | none => simp [enter, waiting, number, withRedo]
  | some x => simp [enter, waiting, number, located]

/-- A refused answer before another leaves its note, and nothing else. -/
theorem enter_after_refusal {m : Machine} {name : String} (waiting : m.state = .waiting name)
    (storable : m.memory.isArray name = false) {refused : String} (isRefused : (m.enter refused).1 = false)
    (text : String) :
    (m.enter refused).2.enter text = ((m.enter text).1, (m.enter text).2.withRedo true) := by
  rw [enter_of_waiting waiting storable] at isRefused
  have noNumber : answer? refused = none := by
    cases number : answer? refused with
    | none => rfl
    | some x => simp [number] at isRefused
  have stays : (m.withRedo true).state = .waiting name := waiting
  rw [enter_of_waiting waiting storable refused, noNumber, enter_of_waiting stays storable,
    enter_of_waiting waiting storable]
  cases answer? text <;> rfl

/-! ### Calls -/

/-- The machine waits for an answer and has nothing to report. -/
structure IsAsking (m : Machine) : Prop where
  pending : m.pending = []
  waiting : ∃ name, m.state = .waiting name

/-- A machine that asks shows the note instead of its prompt, once. -/
theorem IsAsking.execute_withRedo {m : Machine} (asking : m.IsAsking) (budget : Nat) :
    (m.withRedo true).execute budget = (.print redoText, m.withRedo false) := by
  obtain ⟨pending, name, waiting⟩ := asking
  have shown := execute_of_waiting (m := m.withRedo true) pending waiting budget
  exact shown.trans (if_pos rfl)

theorem IsAsking.execute_eq {m : Machine} (asking : m.IsAsking) (noNote : m.redo = false) (budget : Nat) :
    m.execute budget = (.input prompt, m) := by
  obtain ⟨pending, name, waiting⟩ := asking
  rw [execute_of_waiting pending waiting, noNote]
  rfl

/-- A machine that does not ask goes on alike with the note and without it. -/
theorem execute_withRedo {m : Machine} (notAsking : ¬ m.IsAsking) (budget : Nat) :
    (m.withRedo true).execute budget = ((m.execute budget).1, (m.execute budget).2.withRedo true) := by
  by_cases nothing : m.pending = []
  · have still : (m.withRedo true).pending = [] := nothing
    cases state : m.state with
    | stopped =>
        rw [execute_of_stopped nothing state, execute_of_stopped still state]
    | waiting name => exact absurd ⟨nothing, name, state⟩ notAsking
    | running =>
        have ready : m.IsReady := ⟨nothing, state⟩
        have alsoReady : (m.withRedo true).IsReady := ⟨still, state⟩
        rw [ready.execute_eq_run, alsoReady.execute_eq_run, run_withRedo]
  · have still : (m.withRedo true).pending ≠ [] := nothing
    rw [execute_of_pending nothing, execute_of_pending still]
    rfl

theorem enter_withRedo (m : Machine) (text : String) :
    (m.withRedo true).enter text = m.enter text ∨
      (m.withRedo true).enter text = ((m.enter text).1, (m.enter text).2.withRedo true) := by
  have sameState : (m.withRedo true).state = m.state := rfl
  have sameMemory : (m.withRedo true).memory = m.memory := rfl
  unfold enter
  rw [sameState, sameMemory]
  split
  · split
    · exact Or.inl rfl
    · split
      · exact Or.inr rfl
      · exact Or.inr rfl
  · exact Or.inr rfl

/-- Every call but going on with a machine that asks is replied to alike; afterwards the machines are the same
    or still differ in the note. -/
theorem call_withRedo {m : Machine} {c : Call} (unasked : ∀ budget, c = .execute budget → ¬ m.IsAsking) :
    (m.withRedo true).call c = m.call c ∨
      (m.withRedo true).call c = ((m.call c).1, (m.call c).2.withRedo true) := by
  cases c with
  | load listing => exact Or.inl rfl
  | execute budget =>
      apply Or.inr
      simp only [call]
      rw [execute_withRedo (unasked budget rfl)]
  | enter text =>
      simp only [call]
      rcases enter_withRedo m text with same | noted
      · rw [same]
        exact Or.inl rfl
      · rw [noted]
        exact Or.inr rfl
  | interrupt =>
      apply Or.inr
      have sameRunning : (m.withRedo true).isRunning = m.isRunning := rfl
      simp only [call, interrupt]
      rw [sameRunning]
      split
      · rfl
      · rfl
  | fail problem => exact Or.inr rfl

/-- A machine with the note and one without reply alike to any calls, or else they do so up to a call that
    finds them asking: there the one shows the note and the other its prompt, and from then on they are the
    same machine. -/
theorem replies_withRedo (calls : List Call) (m : Machine) :
    (m.withRedo true).replies calls = m.replies calls ∨
    ∃ before budget later, calls = before ++ .execute budget :: later ∧ (m.after before).IsAsking ∧
      m.replies calls =
        m.replies before ++ .event (.input prompt) :: (m.after before).replies later ∧
      (m.withRedo true).replies calls =
        m.replies before ++ .event (.print redoText) :: (m.after before).replies later := by
  induction calls generalizing m with
  | nil => exact Or.inl rfl
  | cons c rest ih =>
      by_cases found : ∃ budget, c = .execute budget ∧ m.IsAsking
      · obtain ⟨budget, rfl, asking⟩ := found
        cases noted : m.redo with
        | true => exact Or.inl (by rw [withRedo_of_eq noted])
        | false =>
            refine Or.inr ⟨[], budget, rest, rfl, asking, ?_, ?_⟩
            · simp only [replies, call, asking.execute_eq noted]
              rfl
            · simp only [replies, call, asking.execute_withRedo, withRedo_of_eq noted]
              rfl
      · have unasked : ∀ budget, c = .execute budget → ¬ m.IsAsking :=
          fun budget same asking => found ⟨budget, same, asking⟩
        rcases call_withRedo unasked with same | noted
        · exact Or.inl (by simp only [replies, same])
        · simp only [replies, noted]
          rcases ih (m.call c).2 with alike | ⟨before, budget, later, rfl, asking, prompted, shown⟩
          · exact Or.inl (by rw [alike])
          · refine Or.inr ⟨c :: before, budget, later, rfl, asking, ?_, ?_⟩
            · rw [prompted]
              rfl
            · rw [shown]
              rfl

/-- What a refused answer leaves behind. Take any calls on a new machine that then waits, a text that it
    refuses and one that it accepts. After both, in this order, it has accepted the second. If the caller goes
    on after the refusal, the note is shown and the second answer leads where it leads alone. If the caller
    does not, then later calls are replied to as after the second answer alone, but for at most one: where
    going on finds an input waiting and would show its prompt, the note is shown instead, and from then on the
    replies are the same again. -/
theorem stale_refusal_replaces_one_prompt (generator : Generator) (calls : List Call) {name : String}
    {refused accepted : String} (waiting : ((new generator).after calls).state = .waiting name)
    (isRefused : (((new generator).after calls).enter refused).1 = false)
    (isAccepted : (((new generator).after calls).enter accepted).1 = true) :
    let m := (new generator).after calls
    let alone := (m.enter accepted).2
    let both := ((m.enter refused).2.enter accepted).2
    ((m.enter refused).2.enter accepted).1 = true ∧
    (∀ budget, ((m.enter refused).2.execute budget).1 = .print redoText ∧
      (m.redo = false → ((m.enter refused).2.execute budget).2.enter accepted = (true, alone))) ∧
    ∀ later, both.replies later = alone.replies later ∨
      ∃ before budget rest, later = before ++ .execute budget :: rest ∧
        (alone.after before).pending = [] ∧ (∃ other, (alone.after before).state = .waiting other) ∧
        alone.replies later =
          alone.replies before ++ .event (.input prompt) :: (alone.after before).replies rest ∧
        both.replies later =
          alone.replies before ++ .event (.print redoText) :: (alone.after before).replies rest := by
  intro m alone both
  have awaits : m.AwaitsAnswer name := ((IsSound.new generator).calls calls).waiting name waiting
  have entered := enter_after_refusal waiting awaits.storable isRefused accepted
  have asking : m.IsAsking := ⟨awaits.pending, name, waiting⟩
  have noted : (m.enter refused).2 = m.withRedo true := by
    rw [enter_of_waiting waiting awaits.storable] at isRefused ⊢
    split at isRefused
    · rfl
    · cases isRefused
  refine ⟨?_, ?_, ?_⟩
  · rw [entered]
    exact isAccepted
  · intro budget
    rw [noted, asking.execute_withRedo]
    refine ⟨rfl, fun noNote => ?_⟩
    rw [withRedo_of_eq noNote]
    exact Prod.ext isAccepted rfl
  · intro later
    have differ : both = alone.withRedo true := congrArg Prod.snd entered
    rw [differ]
    rcases replies_withRedo later alone with alike | ⟨before, budget, rest, split, found, prompted, shown⟩
    · exact Or.inl alike
    · exact Or.inr ⟨before, budget, rest, split, found.pending, found.waiting, prompted, shown⟩

end Machine

/-! ### Two inputs -/

namespace Statement

/-- The variable that a statement asks for, if it is an input. -/
def asked? (s : Statement) : Option String :=
  match s.command with
  | .input name => some name
  | _ => none

theorem eq_of_asked {s : Statement} {label : Label} {name : String}
    (same : (s.label, s.asked?) = (label, some name)) : s = ⟨label, .input name⟩ := by
  obtain ⟨rfl, asked⟩ := Prod.mk.inj same
  rcases s with ⟨label, command⟩
  cases command with
  | input other =>
      cases asked
      rfl
  | _ => cases asked

end Statement

namespace Machine

/-- Carrying out an input into a variable that can be written shows the prompt and waits. -/
theorem step_input {m : Machine} {name : String} (storable : m.memory.isArray name = false) (label : Label) :
    m.step ⟨label, .input name⟩ = (some (.input prompt), { m.advance with state := .waiting name }) := by
  have located := locate_of_not_array storable
  simp only [step, planned, Command.plan, located]
  rfl

/-- A program of two inputs. -/
def twoInputs : Listing :=
  Listing.load "10 INPUT X\n20 INPUT Y\n"

/-- Loads the two inputs and goes on to the first of them. -/
def askForFirst : List Call :=
  [.load twoInputs, .execute 9]

/-- The machine that waits for the answer to the first of the two inputs. -/
def firstAsked : Machine :=
  (new (.constant 0)).after askForFirst

theorem twoInputs_statements : twoInputs.statements = [⟨"10", .input "X"⟩, ⟨"20", .input "Y"⟩] := by
  have inputs : twoInputs.statements.map (fun s => (s.label, s.asked?)) =
      [("10", some "X"), ("20", some "Y")] := by
    decide +kernel
  obtain ⟨first, _, split, isFirst, others⟩ := List.map_eq_cons_iff.1 inputs
  obtain ⟨second, _, rfl, isSecond, none⟩ := List.map_eq_cons_iff.1 others
  rw [split, Statement.eq_of_asked isFirst, Statement.eq_of_asked isSecond, List.map_eq_nil_iff.1 none]

theorem isArray_empty (name : String) : Memory.empty.isArray name = false := by
  simp [Memory.isArray, Memory.empty]

theorem firstAsked_eq :
    firstAsked =
      { generator := .constant 0, program := .ofStatements twoInputs.statements, pc := 1, last := some 0,
        state := .waiting "X" } := by
  have nothing : twoInputs.errors = [] := by decide +kernel
  have ready : ((new (.constant 0)).load twoInputs).IsReady := ⟨nothing, rfl⟩
  have found : ((new (.constant 0)).load twoInputs).program.statement? 0 = some ⟨"10", .input "X"⟩ := by
    simp [load, Program.statement?, Program.ofStatements, twoInputs_statements]
  have asked := step_input (m := (new (.constant 0)).load twoInputs) (isArray_empty "X") "10"
  simp only [firstAsked, askForFirst, after, call]
  rw [ready.execute_eq_run, run_event found asked]
  simp [advance, load, new, nothing]

/-- The first of the two inputs waits, refuses a word and accepts a number. -/
theorem firstAsked_answers :
    firstAsked.state = .waiting "X" ∧ firstAsked.memory.isArray "X" = false ∧
      (firstAsked.enter "A").1 = false ∧ (firstAsked.enter "1").1 = true ∧
      ∃ x, (firstAsked.enter "1").2 =
        { firstAsked with memory := firstAsked.memory.put (.scalar "X") x, state := .running } := by
  have waiting : firstAsked.state = .waiting "X" := by rw [firstAsked_eq]
  have free : firstAsked.memory.isArray "X" = false := by
    rw [firstAsked_eq]
    exact isArray_empty "X"
  have word : answer? "A" = none := by decide +kernel
  obtain ⟨x, number⟩ : ∃ x, answer? "1" = some x := Option.isSome_iff_exists.1 (by decide +kernel)
  rw [enter_of_waiting waiting free, enter_of_waiting waiting free, word, number]
  exact ⟨waiting, free, rfl, rfl, x, rfl⟩

/-- Once the first input has been answered, going on shows the prompt of the second. -/
theorem firstAnswered_asks :
    (firstAsked.enter "1").2.IsReady ∧ ∃ next, (firstAsked.enter "1").2.execute 9 = (.input prompt, next) ∧
      next.IsAsking ∧ next.redo = false := by
  obtain ⟨_, _, _, _, x, answered⟩ := firstAsked_answers
  rw [answered, firstAsked_eq]
  refine ⟨⟨rfl, rfl⟩, ?_⟩
  generalize program : Program.ofStatements twoInputs.statements = p
  have found : p.statement? 1 = some ⟨"20", .input "Y"⟩ := by
    rw [← program, twoInputs_statements]
    rfl
  have free : (Memory.empty.put (.scalar "X") x).isArray "Y" = false := by
    rw [Memory.isArray_put]
    exact isArray_empty "Y"
  refine ⟨_, run_event found (step_input free "20") 8, ⟨rfl, "Y", rfl⟩, rfl⟩

/-- A word refused by the first of two inputs is shown as refused at the second, which nobody has answered
    yet. -/
theorem refusal_outlives_its_input :
    firstAsked.state = .waiting "X" ∧ (firstAsked.enter "A").1 = false ∧ (firstAsked.enter "1").1 = true ∧
    (firstAsked.enter "1").2.replies [.execute 9, .execute 9] =
      [.event (.input prompt), .event (.input prompt)] ∧
    ((firstAsked.enter "A").2.enter "1").2.replies [.execute 9, .execute 9] =
      [.event (.input prompt), .event (.print redoText)] := by
  obtain ⟨waiting, free, refused, accepted, _⟩ := firstAsked_answers
  obtain ⟨ready, next, asks, asking, noNote⟩ := firstAnswered_asks
  have notAsking : ¬ (firstAsked.enter "1").2.IsAsking := by
    rintro ⟨_, name, waits⟩
    rw [ready.2] at waits
    cases waits
  refine ⟨waiting, refused, accepted, ?_, ?_⟩
  · simp only [replies, call, asks, asking.execute_eq noNote]
  · rw [enter_after_refusal waiting free refused]
    simp only [replies, call, execute_withRedo notAsking, asks, asking.execute_withRedo]

/-- The second answer to the first of the two inputs is accepted, and where the caller goes on before it, it
    leads where it leads alone. -/
theorem stale_refusal_twoInputs :
    firstAsked.state = .waiting "X" ∧ (firstAsked.enter "A").1 = false ∧ (firstAsked.enter "1").1 = true ∧
    ((firstAsked.enter "A").2.enter "1").1 = true ∧
    ((firstAsked.enter "A").2.execute 9).2.enter "1" = (true, (firstAsked.enter "1").2) := by
  obtain ⟨waiting, _, refused, accepted, _⟩ := firstAsked_answers
  have noNote : firstAsked.redo = false := by rw [firstAsked_eq]
  obtain ⟨second, shown, _⟩ :=
    stale_refusal_replaces_one_prompt (.constant 0) askForFirst waiting refused accepted
  exact ⟨waiting, refused, accepted, second, (shown 9).2 noNote⟩

end Machine

end Plotline

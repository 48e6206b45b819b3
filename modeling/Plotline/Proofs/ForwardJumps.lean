/-
Module: Plotline.Proofs.ForwardJumps
Layer: Proofs
Purpose: Programs that only jump forward. Every statement of such a program leads to a larger address, so a
  run visits addresses in ascending order, each at most once (`Machine.Ascends.isKept`), whatever its caller
  does. A caller who goes on with positive budgets and answers every input has at most as many rounds ahead of
  it as the machine has statements left, and two more: one for the reports of the listing and one to be told
  that the program has stopped (`Machine.roundsLeft`). A program without jumps and ends runs from its first
  statement to its last, unless one of them fails, and the caller sees what they give in this order.
Main exports: Program.JumpsForward, Program.GoesStraight, Machine.Ascends.isKept, Machine.roundsLeft,
  Machine.IsBetween.progress, Machine.IsBetween.stops, Machine.stopped_by, Machine.visits_complete,
  Machine.forward_programs_stop
-/
import Plotline.Proofs.Conversation
import Plotline.Proofs.JumpTargets

namespace Plotline

/-- The label that a command jumps to. -/
def Command.target? (c : Command) : Option Label :=
  c.jump?.map Prod.snd

/-- The command is neither a jump nor the end of the program, so the next statement comes after it. -/
def Command.goesOn : Command → Bool
  | .goto _ | .branch .. | .halt => false
  | _ => true

/-- Every jump whose label is found leads to a larger address than its own. -/
def Program.JumpsForward (p : Program) : Prop :=
  ∀ (address : Nat) (s : Statement) (target : Label) (destination : Nat), p.statement? address = some s →
    s.command.target? = some target → p.addressOf target = .ok destination → address < destination

/-- Every statement goes on to the next one. -/
def Program.GoesStraight (p : Program) : Prop :=
  ∀ address s, p.statement? address = some s → s.command.goesOn = true

namespace Machine

/-! ### Addresses ascend -/

/-- Where one statement leads: to the next address, unless it jumps. -/
theorem step_pc (m : Machine) (s : Statement) :
    (m.step s).2.pc = m.pc + 1 ∨
      ∃ target, s.command.target? = some target ∧ m.program.addressOf target = .ok (m.step s).2.pc := by
  rcases s with ⟨label, command⟩
  rcases hstep : m.step ⟨label, command⟩ with ⟨event, next⟩
  rcases step_cases hstep with ⟨action, generator, planned, carried⟩ | ⟨_, _, _, _, rfl⟩
  · cases Command.plan_returns command m.generator action generator planned with
    | goto found | branch found =>
        cases carried
        exact Or.inr ⟨_, rfl, found⟩
    | _ =>
        cases carried
        exact Or.inl rfl
  · exact Or.inl rfl

/-- In a program that only jumps forward every statement leads to a larger address. -/
theorem pc_lt_step {m : Machine} {s : Statement} (forward : m.program.JumpsForward)
    (found : m.program.statement? m.pc = some s) : m.pc < (m.step s).2.pc := by
  rcases step_pc m s with next | ⟨target, isJump, resolved⟩
  · omega
  · exact forward m.pc s target _ found isJump resolved

theorem enter_pc (m : Machine) (text : String) : (m.enter text).2.pc = m.pc := by
  unfold enter
  split
  · split
    · rfl
    · split <;> rfl
  · rfl

/-- The addresses visited so far ascend, and the next one is beyond all of them. -/
structure Ascends (ran : List Visit) (next : Nat) : Prop where
  ascending : (ran.map (·.machine.pc)).Pairwise (· < ·)
  passed : ∀ v ∈ ran, v.machine.pc < next
  count : ran.length ≤ next

namespace Ascends

theorem step {ran : List Visit} {v : Visit} {next : Nat} (ascends : Ascends ran v.machine.pc)
    (further : v.machine.pc < next) : Ascends (ran ++ [v]) next where
  ascending := by
    rw [List.map_append, List.map_singleton, List.pairwise_append]
    refine ⟨ascends.ascending, List.pairwise_singleton _ _, ?_⟩
    intro earlier mem last isLast
    obtain ⟨u, visited, rfl⟩ := List.mem_map.1 mem
    rw [List.mem_singleton.1 isLast]
    exact ascends.passed u visited
  passed := by
    intro u mem
    rcases List.mem_append.1 mem with earlier | here
    · exact Nat.lt_trans (ascends.passed u earlier) further
    · rw [List.mem_singleton.1 here]
      exact further
  count := by
    have before := ascends.count
    rw [List.length_append, List.length_singleton]
    omega

/-- Whatever its caller does, a machine whose program only jumps forward visits ascending addresses. -/
theorem isKept : IsKept fun ran m => m.program.JumpsForward → Ascends ran m.pc where
  load _ _ _ := ⟨List.Pairwise.nil, by simp, Nat.zero_le _⟩
  step ascends _ found forward := by
    rw [step_program] at forward
    exact (ascends forward).step (pc_lt_step forward found)
  stop ascends _ := ascends
  fail _ ascends := ascends
  quiet _ ascends := ascends
  enter {_ m} text ascends forward := by
    rw [enter_program] at forward
    rw [enter_pc]
    exact ascends forward

end Ascends

/-! ### Rounds ahead -/

/-- How many rounds a machine can still take: one to hand out its reports, one for each statement from its
    address on, and one to say that it has stopped. -/
def roundsLeft (m : Machine) : Nat :=
  (if m.pending = [] then 0 else 1) + (if m.state = .stopped then 1 else m.program.size - m.pc + 1)

theorem roundsLeft_pos (m : Machine) : 0 < m.roundsLeft := by
  unfold roundsLeft
  split <;> split <;> omega

theorem roundsLeft_le (m : Machine) : m.roundsLeft ≤ m.program.size + 2 := by
  unfold roundsLeft
  split <;> split <;> omega

/-- A run that finds a statement carries it out. -/
theorem mem_runVisits {m : Machine} {s : Statement} (found : m.program.statement? m.pc = some s)
    (budget : Nat) : ⟨m, s⟩ ∈ m.runVisits (budget + 1) := by
  rcases hstep : m.step s with ⟨event, next⟩
  cases event with
  | some event => simp [runVisits_event found hstep]
  | none => simp [runVisits_silent found hstep]

/-- Going on with a positive budget, a machine that does not wait says that it has stopped, or has fewer
    rounds ahead of it. -/
theorem execute_progress {ran : List Visit} {m : Machine} (sound : IsSound ran m)
    (forward : m.program.JumpsForward) (notWaiting : ∀ name, m.state ≠ .waiting name) {budget : Nat}
    (positive : 0 < budget) :
    (m.execute budget).1 = .stopped ∨ (m.execute budget).2.roundsLeft < m.roundsLeft := by
  by_cases nothing : m.pending = []
  · cases state : m.state with
    | stopped => exact Or.inl (by rw [execute_of_stopped nothing state])
    | waiting name => exact absurd state (notWaiting name)
    | running =>
        have ready : m.IsReady := ⟨nothing, state⟩
        obtain ⟨budget, rfl⟩ : ∃ less, budget = less + 1 := ⟨budget - 1, by omega⟩
        rw [ready.execute_eq_run]
        cases found : m.program.statement? m.pc with
        | none => exact Or.inl (by rw [run_past_end found])
        | some s =>
            have sameProgram := run_program (budget + 1) m
            have start : m.program.JumpsForward → Ascends [] m.pc := fun _ =>
              ⟨List.Pairwise.nil, by simp, Nat.zero_le _⟩
            have further : m.pc < (m.run (budget + 1)).2.pc :=
              (Ascends.isKept.run (budget + 1) start ready (sameProgram ▸ forward)).passed _
                (mem_runVisits found budget)
            have inside : (m.run (budget + 1)).2.pc ≤ m.program.size :=
              sameProgram ▸ (IsSound.isKept.run (budget + 1) sound ready).pc_le
            have ahead : m.roundsLeft = m.program.size - m.pc + 1 := by simp [roundsLeft, nothing, state]
            have left : (m.run (budget + 1)).2.roundsLeft ≤
                m.program.size - (m.run (budget + 1)).2.pc + 1 := by
              rw [roundsLeft, (run_reports (budget + 1) m).1, sameProgram, nothing, if_pos rfl]
              split <;> omega
            omega
  · right
    rw [execute_of_pending nothing]
    simp [roundsLeft, nothing]

/-- An answer that is accepted changes nothing about the rounds ahead of a machine that waits. -/
theorem roundsLeft_enter {m : Machine} {name text : String} (waiting : m.state = .waiting name)
    (accepted : (m.enter text).1 = true) : (m.enter text).2.roundsLeft = m.roundsLeft := by
  obtain ⟨running, pending⟩ := enter_accepted accepted
  rw [roundsLeft, roundsLeft, pending, running, waiting, enter_program, enter_pc]
  simp

/-- A round of positive budget in which no answer is refused says that the machine has stopped, or leaves it
    with fewer rounds ahead of it. -/
theorem IsBetween.progress {m : Machine} (between : m.IsBetween) (forward : m.program.JumpsForward)
    {budget : Nat} (positive : 0 < budget) {answer : String}
    (accepted : .accepted false ∉ m.replies (m.round budget answer)) :
    .event .stopped ∈ m.replies (m.round budget answer) ∨
      (m.after (m.round budget answer)).roundsLeft < m.roundsLeft := by
  obtain ⟨ran, sound⟩ := between.sound
  have progress := execute_progress sound forward between.notWaiting positive
  rcases between.round_cases accepted with ⟨calls, _⟩ | ⟨calls, asks, ⟨name, waiting⟩, isAccepted⟩
  · simp only [calls, after, replies, call_execute]
    rcases progress with stopped | fewer
    · exact Or.inl (List.mem_singleton.2 (congrArg Reply.event stopped.symm))
    · exact Or.inr fewer
  · simp only [calls, after, replies, call_execute, call_enter]
    rcases progress with stopped | fewer
    · cases asks.symm.trans stopped
    · exact Or.inr ((roundsLeft_enter waiting isAccepted).trans_lt fewer)

/-- A program that only jumps forward stops within the rounds ahead of the machine, if every answer in them is
    accepted. -/
theorem IsBetween.stops {m : Machine} (between : m.IsBetween) (forward : m.program.JumpsForward)
    {schedule : List (Nat × String)} (positive : ∀ round ∈ schedule, 0 < round.1)
    (enough : m.roundsLeft ≤ schedule.length)
    (accepted : .accepted false ∉ m.replies (m.conversation schedule)) :
    .event .stopped ∈ m.replies (m.conversation schedule) := by
  induction schedule generalizing m with
  | nil => exact absurd enough (Nat.not_le.2 m.roundsLeft_pos)
  | cons first rest ih =>
      obtain ⟨now, later⟩ := List.forall_mem_cons.1 positive
      simp only [conversation, replies_append, List.mem_append, not_or] at accepted ⊢
      rcases between.progress forward now accepted.1 with stopped | fewer
      · exact Or.inl stopped
      · have sameProgram : (m.after (m.round first.1 first.2)).program = m.program :=
          after_program m _ (loadsNothing_of_serves (m.round_serves first.1 first.2))
        refine Or.inr (ih (between.round accepted.1) (sameProgram ▸ forward) later ?_ accepted.2)
        rw [List.length_cons] at enough
        omega

/-! ### Why a machine stops -/

theorem step_event_ne_stopped {m next : Machine} {s : Statement} {event : Event}
    (hstep : m.step s = (some event, next)) : event ≠ .stopped := by
  rintro rfl
  rcases step_cases hstep with ⟨action, _, _, carried⟩ | ⟨_, _, _, reported, _⟩
  · cases action <;> cases carried
  · cases reported

/-- A run that says so has stopped. -/
theorem run_says_stopped {budget : Nat} {m : Machine} (told : (m.run budget).1 = .stopped) :
    (m.run budget).2.state = .stopped := by
  induction budget generalizing m with
  | zero => cases told
  | succ budget ih =>
      cases found : m.program.statement? m.pc with
      | none => rw [run_past_end found]
      | some s =>
          rcases hstep : m.step s with ⟨event, next⟩
          cases event with
          | some event =>
              rw [run_event found hstep] at told
              exact absurd told (step_event_ne_stopped hstep)
          | none =>
              rw [run_silent found hstep] at told ⊢
              exact ih told

theorem execute_says_stopped {m : Machine} {budget : Nat} (told : (m.execute budget).1 = .stopped) :
    (m.execute budget).2.state = .stopped := by
  by_cases nothing : m.pending = []
  · cases state : m.state with
    | stopped =>
        rw [execute_of_stopped nothing state]
        exact state
    | waiting name =>
        rw [execute_of_waiting nothing state] at told
        split at told <;> cases told
    | running =>
        have ready : m.IsReady := ⟨nothing, state⟩
        rw [ready.execute_eq_run] at told ⊢
        exact run_says_stopped told
  · rw [execute_of_pending nothing] at told
    cases told

/-- Once a caller was told so, the machine has stopped for good. -/
theorem after_says_stopped {m : Machine} {calls : List Call} (sameProgram : ∀ listing, .load listing ∉ calls)
    (told : .event .stopped ∈ m.replies calls) : (m.after calls).state = .stopped := by
  induction calls generalizing m with
  | nil => cases told
  | cons c rest ih =>
      obtain ⟨_, others⟩ := loadsNothing_cons sameProgram
      rcases List.mem_cons.1 told with here | later
      · cases c with
        | execute budget =>
            injection here with told
            exact (stopped_after (execute_says_stopped told.symm) rest others).1.stopped
        | _ => cases here
      · exact ih others later

/-- A statement that stops a running machine fails or is the end of the program. -/
theorem step_stopped {m : Machine} {s : Statement} (running : m.state = .running)
    (stopped : (m.step s).2.state = .stopped) : Visit.problem? ⟨m, s⟩ ≠ none ∨ s.command = .halt := by
  rcases s with ⟨label, command⟩
  rcases hstep : m.step ⟨label, command⟩ with ⟨event, next⟩
  rw [hstep] at stopped
  rcases step_cases hstep with ⟨action, generator, planned, carried⟩ | ⟨_, _, planned, _⟩
  · cases Command.plan_returns command m.generator action generator planned with
    | halt => exact Or.inr rfl
    | input =>
        cases carried
        cases stopped
    | _ =>
        cases carried
        cases running.symm.trans stopped
  · exact Or.inl (by simp [Visit.problem?, planned])

/-- A run stops a machine beyond the last statement only, unless a statement fails or ends the program. -/
theorem run_stopped {budget : Nat} {m : Machine} (ready : m.IsReady)
    (stopped : (m.run budget).2.state = .stopped) :
    m.program.statement? (m.run budget).2.pc = none ∨
      ∃ v ∈ m.runVisits budget, v.problem? ≠ none ∨ v.statement.command = .halt := by
  induction budget generalizing m with
  | zero => cases ready.2.symm.trans stopped
  | succ budget ih =>
      cases found : m.program.statement? m.pc with
      | none =>
          rw [run_past_end found]
          exact Or.inl found
      | some s =>
          have cause := step_stopped ready.2 (s := s)
          have sameProgram := step_program m s
          rcases hstep : m.step s with ⟨event, next⟩
          rw [hstep] at cause sameProgram
          cases event with
          | some event =>
              rw [run_event found hstep] at stopped
              rw [runVisits_event found hstep]
              exact Or.inr ⟨⟨m, s⟩, List.mem_singleton_self _, cause stopped⟩
          | none =>
              rw [run_silent found hstep] at stopped ⊢
              rw [runVisits_silent found hstep, ← show next.program = m.program from sameProgram]
              rcases ih (ready.step hstep) stopped with pastEnd | ⟨v, visited, why⟩
              · exact Or.inl pastEnd
              · exact Or.inr ⟨v, List.mem_cons_of_mem _ visited, why⟩

/-- An answer does not stop a machine that can be reached. -/
theorem IsSound.enter_ne_stopped {ran : List Visit} {m : Machine} (sound : IsSound ran m)
    (under : m.state ≠ .stopped) (text : String) : (m.enter text).2.state ≠ .stopped := by
  unfold Machine.enter
  split
  · rename_i name waiting
    split
    · exact under
    · rw [locate_of_not_array (sound.waiting name waiting).storable]
      simp
  · exact under

/-- The same for a call that goes on or answers. -/
theorem call_stopped {ran : List Visit} {m : Machine} (sound : IsSound ran m) {c : Call} (serves : Serves c)
    (under : m.state ≠ .stopped) (stopped : (m.call c).2.state = .stopped) :
    m.program.statement? (m.call c).2.pc = none ∨
      ∃ v ∈ m.callVisits c, v.problem? ≠ none ∨ v.statement.command = .halt := by
  rcases serves with ⟨budget, rfl⟩ | ⟨text, rfl⟩
  · simp only [call_execute, callVisits] at stopped ⊢
    by_cases ready : m.IsReady
    · rw [ready.execute_eq_run] at stopped ⊢
      rw [ready.executeVisits_eq]
      exact run_stopped ready stopped
    · obtain ⟨redo, same⟩ := execute_not_ready_eq ready budget
      rw [same] at stopped
      exact absurd stopped under
  · exact absurd stopped (sound.enter_ne_stopped under text)

/-- A caller who only goes on and answers finds that a machine has stopped beyond the last statement, unless a
    statement has failed or ended the program. -/
theorem stopped_by {ran : List Visit} {m : Machine} (sound : IsSound ran m) {calls : List Call}
    (serves : ∀ c ∈ calls, Serves c) (under : m.state ≠ .stopped)
    (stopped : (m.after calls).state = .stopped) :
    m.program.statement? (m.after calls).pc = none ∨
      ∃ v ∈ m.visits calls, v.problem? ≠ none ∨ v.statement.command = .halt := by
  induction calls generalizing ran m with
  | nil => exact absurd stopped under
  | cons c rest ih =>
      obtain ⟨first, others⟩ := List.forall_mem_cons.1 serves
      have notLoad := (loadsNothing_cons (loadsNothing_of_serves serves)).1
      by_cases now : (m.call c).2.state = .stopped
      · have stays := (stopped_after now rest (loadsNothing_of_serves others)).1
        rcases call_stopped sound first under now with pastEnd | ⟨v, visited, why⟩
        · exact Or.inl (stays.pc ▸ pastEnd)
        · exact Or.inr ⟨v, List.mem_append_left _ visited, why⟩
      · rcases ih (IsSound.isKept.call sound c notLoad) others now stopped with pastEnd | ⟨v, visited, why⟩
        · exact Or.inl (call_program m c notLoad ▸ pastEnd)
        · exact Or.inr ⟨v, List.mem_append_right _ visited, why⟩

/-! ### Programs without jumps -/

theorem target?_of_goesOn {c : Command} (goesOn : c.goesOn = true) : c.target? = none ∧ c ≠ .halt := by
  cases c with
  | goto | branch | halt => cases goesOn
  | _ => exact ⟨rfl, by simp⟩

/-- A program without jumps is carried out address by address, from the first on. -/
theorem addresses_isKept : IsKept fun ran m =>
    m.program.GoesStraight → ran.map (·.machine.pc) = List.range m.pc where
  load _ _ _ := rfl
  step {ran m s} follows _ found straight := by
    rw [step_program] at straight
    have next : (m.step s).2.pc = m.pc + 1 := by
      rcases step_pc m s with next | ⟨target, isJump, _⟩
      · exact next
      · cases (target?_of_goesOn (straight m.pc s found)).1.symm.trans isJump
    rw [next, List.map_append, follows straight, List.range_succ]
    rfl
  stop follows _ := follows
  fail _ follows := follows
  quiet _ follows := follows
  enter {_ m} text follows straight := by
    rw [enter_program] at straight
    rw [enter_pc]
    exact follows straight

/-- A machine that has gone from the first address to the last has carried out the statements of its
    program, in order. -/
theorem IsSound.statements_eq {ran : List Visit} {m : Machine} (sound : IsSound ran m)
    {statements : List Statement} (program : m.program = .ofStatements statements)
    (all : ran.map (·.machine.pc) = List.range statements.length) : ran.map (·.statement) = statements := by
  have carriedOut : ran.map (fun v => some v.statement) =
      (ran.map (·.machine.pc)).map (fun address => statements[address]?) := by
    rw [List.map_map]
    apply List.map_congr_left
    intro v mem
    have found := sound.ran_mem v mem
    rw [program, Program.statement?_ofStatements] at found
    exact found.symm
  have listed : (List.range statements.length).map (fun address => statements[address]?) =
      statements.map some := by
    apply List.ext_getElem
    · simp
    · simp
  rw [all, listed, ← Function.comp_def some Visit.statement, ← List.map_map] at carriedOut
  exact List.map_injective_iff.2 (fun _ _ => Option.some.inj) carriedOut

/-! ### A loaded program -/

theorem isBetween_load (m : Machine) (listing : Listing) : (m.load listing).IsBetween where
  sound := ⟨[], IsSound.load m listing⟩
  notWaiting := by simp [load]

/-- The visits of any calls on a program that only jumps forward. -/
theorem visits_ascend {m : Machine} {listing : Listing}
    (forward : (Program.ofStatements listing.statements).JumpsForward) {calls : List Call}
    (sameProgram : ∀ other, .load other ∉ calls) :
    (((m.load listing).visits calls).map (·.machine.pc)).Pairwise (· < ·) ∧
      ((m.load listing).visits calls).length ≤ listing.statements.length := by
  have program := after_program (m.load listing) calls sameProgram
  have ascends := Ascends.isKept.visits calls sameProgram (Ascends.isKept.load m listing)
    (program ▸ forward)
  have inside := (IsSound.isKept.visits calls sameProgram (IsSound.load m listing)).pc_le
  rw [program] at inside
  exact ⟨ascends.ascending, ascends.count.trans (inside.trans_eq (Program.size_ofStatements _))⟩

/-- The visits of calls that only go on and answer, on a program without jumps that has stopped and of which
    no statement has failed. -/
theorem visits_complete {m : Machine} {listing : Listing}
    (straight : ∀ s ∈ listing.statements, s.command.goesOn = true) {calls : List Call}
    (serves : ∀ c ∈ calls, Serves c) (stopped : ((m.load listing).after calls).state = .stopped)
    (well : ∀ v ∈ (m.load listing).visits calls, v.problem? = none) :
    ((m.load listing).visits calls).map (·.machine.pc) = List.range listing.statements.length ∧
      ((m.load listing).visits calls).map (·.statement) = listing.statements := by
  have sameProgram := loadsNothing_of_serves serves
  have program : ((m.load listing).after calls).program = .ofStatements listing.statements :=
    after_program (m.load listing) calls sameProgram
  have sound := IsSound.isKept.visits calls sameProgram (IsSound.load m listing)
  have inProgram : (Program.ofStatements listing.statements).GoesStraight := by
    intro address s found
    rw [Program.statement?_ofStatements] at found
    exact straight s (List.mem_of_getElem? found)
  have addresses := addresses_isKept.visits calls sameProgram (addresses_isKept.load m listing)
    (program ▸ inProgram)
  have complete : ((m.load listing).after calls).pc = listing.statements.length := by
    apply Nat.le_antisymm
    · rw [← Program.size_ofStatements, ← program]
      exact sound.pc_le
    · rcases stopped_by (IsSound.load m listing) serves (by simp [load]) stopped with
        pastEnd | ⟨v, visited, failed | ended⟩
      · have pastEnd : (Program.ofStatements listing.statements).statement? _ = none := pastEnd
        rw [Program.statement?_ofStatements] at pastEnd
        exact List.getElem?_eq_none_iff.1 pastEnd
      · exact absurd (well v visited) failed
      · have found := sound.ran_mem v visited
        rw [program] at found
        exact absurd ended (target?_of_goesOn (inProgram _ _ found)).2
  rw [complete] at addresses
  exact ⟨addresses, sound.statements_eq program addresses⟩

/-- Programs that only jump forward stop, and carry out each statement at most once. Load any listing in which
    every jump whose label is found leads to a larger address than its own. Whatever calls are made, short of
    loading again, the addresses carried out ascend strictly, so that there are no more of them than the
    program has statements. If the caller goes on with positive budgets and answers every input, and the
    answers are accepted, then it is told within two rounds more than the program has statements that the
    program has stopped. If moreover the program has neither a jump nor an end in it and no statement fails,
    then every address has been carried out once, in order; the texts, prompts and drawings that the caller
    was shown are those of the statements, in order, one for each statement that prints, asks or finishes a
    drawing. -/
theorem forward_programs_stop (m : Machine) (listing : Listing)
    (forward : (Program.ofStatements listing.statements).JumpsForward) :
    let start := m.load listing
    (∀ calls, (∀ other, .load other ∉ calls) →
      ((start.visits calls).map (·.machine.pc)).Pairwise (· < ·) ∧
      (start.visits calls).length ≤ listing.statements.length) ∧
    ∀ schedule : List (Nat × String), (∀ round ∈ schedule, 0 < round.1) →
      listing.statements.length + 2 ≤ schedule.length →
      let calls := start.conversation schedule
      let shown := (start.replies calls).filterMap Reply.shown?
      .accepted false ∉ start.replies calls →
      .event .stopped ∈ start.replies calls ∧
      ((∀ s ∈ listing.statements, s.command.goesOn = true) →
        (∀ v ∈ start.visits calls, v.problem? = none) →
        (start.visits calls).map (·.machine.pc) = List.range listing.statements.length ∧
        (start.visits calls).map (·.statement) = listing.statements ∧
        shown = (start.visits calls).filterMap Visit.event? ∧
        shown.filterMap Event.signal? = listing.statements.filterMap (·.command.signal?)) := by
  intro start
  refine ⟨fun calls sameProgram => visits_ascend forward sameProgram, ?_⟩
  intro schedule positive enough calls shown accepted
  have between : start.IsBetween := isBetween_load m listing
  have ahead : start.roundsLeft ≤ schedule.length := by
    rw [← Program.size_ofStatements] at enough
    exact start.roundsLeft_le.trans enough
  have told : .event .stopped ∈ start.replies calls := between.stops forward positive ahead accepted
  refine ⟨told, fun straight well => ?_⟩
  have serves := start.conversation_serves schedule
  have stopped := after_says_stopped (loadsNothing_of_serves serves) told
  obtain ⟨addresses, statements⟩ := visits_complete straight serves stopped well
  have goesOn : ∀ v ∈ start.visits calls, v.statement.command ≠ .halt := by
    intro v mem
    have listed : v.statement ∈ listing.statements := statements ▸ List.mem_map_of_mem mem
    exact (target?_of_goesOn (straight _ listed)).2
  obtain ⟨all, signals⟩ := signals_of_visits well goesOn
  have isShown : shown = (start.visits calls).filterMap Visit.event? := (between.shown accepted).trans all
  refine ⟨addresses, statements, isShown, ?_⟩
  rw [isShown, signals, statements]

/-- The visits of a call that goes on are among those of the conversation that begins with it. -/
theorem mem_visits_conversation {m : Machine} {v : Visit} {budget : Nat} (visited : v ∈ m.executeVisits budget)
    (answer : String) (rest : List (Nat × String)) :
    v ∈ m.visits (m.conversation ((budget, answer) :: rest)) := by
  rw [conversation, visits_append]
  apply List.mem_append_left
  rcases m.round_eq budget answer with ⟨calls, _⟩ | ⟨calls, _⟩
  · rw [calls]
    exact List.mem_append_left _ visited
  · rw [calls]
    exact List.mem_append_left _ visited

/-- A program that asks for a number and then jumps over its end. -/
def detour : Listing :=
  { statements :=
      [⟨"10", .input "X"⟩, ⟨"20", .goto "40"⟩, ⟨"30", .halt⟩, ⟨"40", .printText "DONE"⟩] }

/-- A program that prints twice. -/
def stroll : Listing :=
  { statements := [⟨"10", .printText "ONE"⟩, ⟨"20", .printText "TWO"⟩] }

theorem detour_jumpsForward : (Program.ofStatements detour.statements).JumpsForward := by
  intro address s target destination found isJump resolved
  rw [Program.statement?_ofStatements] at found
  rw [Program.addressOf_ofStatements] at resolved
  rcases address with _ | _ | _ | _ | address
  · cases found
    cases isJump
  · cases found
    cases isJump
    cases resolved
    decide
  · cases found
    cases isJump
  · cases found
    cases isJump
  · cases found

theorem stroll_jumpsForward : (Program.ofStatements stroll.statements).JumpsForward := by
  intro address s target destination found isJump resolved
  rw [Program.statement?_ofStatements] at found
  rcases address with _ | _ | address
  · cases found
    cases isJump
  · cases found
    cases isJump
  · cases found

/-- The detour asks first, and jumps once it is answered. -/
theorem detour_jumps (rest : List (Nat × String)) :
    let start := (new (.constant 0)).load detour
    let calls := start.conversation ((1, "7") :: (1, "7") :: rest)
    .accepted true ∈ start.replies calls ∧ ∃ v ∈ start.visits calls, v.target? = some 3 := by
  intro start calls
  have ready : start.IsReady := ⟨rfl, rfl⟩
  have free : start.memory.isArray "X" = false := by simp [start, load, Memory.empty, Memory.isArray]
  have planned : start.planned (.input "X") = (.ok (.ask "X"), start.generator) := by
    rw [Machine.planned, Command.plan_input, locate_of_not_array free]
    rfl
  have asks : start.execute 1 = (.input prompt, { start.advance with state := .waiting "X" }) := by
    have found : start.program.statement? start.pc = some ⟨"10", .input "X"⟩ := rfl
    have stepped : start.step ⟨"10", .input "X"⟩ =
        (some (.input prompt), { start.advance with state := .waiting "X" }) := by
      rw [step, planned]
      rfl
    rw [ready.execute_eq_run, run_event found stepped]
  have answered : ((start.execute 1).2.enter "7").1 = true := by
    have sound := IsSound.isKept.call (IsSound.load (new (.constant 0)) detour) (.execute 1) (by simp)
    exact sound.enter_number (congrArg (·.2.state) asks) (by decide +kernel)
  let inside := ((start.execute 1).2.enter "7").2
  have program : inside.program = .ofStatements detour.statements :=
    (enter_program _ "7").trans (execute_program start 1)
  have pc : inside.pc = 1 := (enter_pc _ "7").trans (congrArg (·.2.pc) asks)
  have insideReady : inside.IsReady := by
    obtain ⟨running, pending⟩ := enter_accepted answered
    exact ⟨pending.trans (congrArg (·.2.pending) asks), running⟩
  have found : inside.program.statement? inside.pc = some ⟨"20", .goto "40"⟩ := by
    rw [program, pc]
    rfl
  have target : Visit.target? ⟨inside, "20", .goto "40"⟩ = some 3 := by
    rw [Visit.target?, planned_goto, program, Program.addressOf_ofStatements.2 rfl]
    rfl
  have first : start.round 1 "7" = [.execute 1, .enter "7"] := by rw [round, asks]
  have split : calls = [.execute 1, .enter "7"] ++ inside.conversation ((1, "7") :: rest) := by
    show start.round 1 "7" ++ (start.after (start.round 1 "7")).conversation ((1, "7") :: rest) = _
    rw [first]
    rfl
  have visited : ⟨inside, "20", .goto "40"⟩ ∈ inside.executeVisits 1 := by
    rw [insideReady.executeVisits_eq]
    exact mem_runVisits found 0
  refine ⟨?_, ⟨inside, "20", .goto "40"⟩, ?_, target⟩
  · rw [split, replies_append]
    apply List.mem_append_left
    simp [replies, call_execute, call_enter, answered]
  · rw [split, visits_append]
    exact List.mem_append_right _ (mem_visits_conversation visited "7" rest)

/-- Six rounds of one statement each are enough for the detour, in which an input is answered and a jump is
    taken, and four for the stroll, which shows both of its texts. -/
theorem forward_programs_stop_detour :
    (let start := (new (.constant 0)).load detour
      let calls := start.conversation (List.replicate 6 (1, "7"))
      (Program.ofStatements detour.statements).JumpsForward ∧ .accepted false ∉ start.replies calls ∧
      .accepted true ∈ start.replies calls ∧ (∃ v ∈ start.visits calls, v.target? = some 3) ∧
      .event .stopped ∈ start.replies calls ∧ (start.visits calls).length ≤ 4) ∧
    (let start := (new (.constant 0)).load stroll
      let calls := start.conversation (List.replicate 4 (1, ""))
      (Program.ofStatements stroll.statements).JumpsForward ∧ .accepted false ∉ start.replies calls ∧
      (∀ v ∈ start.visits calls, v.problem? = none) ∧
      (start.visits calls).map (·.machine.pc) = [0, 1] ∧
      ((start.replies calls).filterMap Reply.shown?).filterMap Event.signal? = [.print, .print]) := by
  constructor
  · intro start calls
    obtain ⟨once, stops⟩ := forward_programs_stop (new (.constant 0)) detour detour_jumpsForward
    have accepted : .accepted false ∉ start.replies calls :=
      (isBetween_load (new (.constant 0)) detour).never_refused (by decide +kernel)
    obtain ⟨answered, jumped⟩ := detour_jumps (List.replicate 4 (1, "7"))
    exact ⟨detour_jumpsForward, accepted, answered, jumped,
      (stops (List.replicate 6 (1, "7")) (by simp) (by decide) accepted).1,
      (once calls (loadsNothing_of_serves (conversation_serves _ _))).2⟩
  · intro start calls
    obtain ⟨_, stops⟩ := forward_programs_stop (new (.constant 0)) stroll stroll_jumpsForward
    have accepted : .accepted false ∉ start.replies calls := by decide +kernel
    have well : ∀ v ∈ start.visits calls, v.problem? = none := by
      have all : ((start.visits calls).all fun v => v.problem?.isNone) = true := by decide +kernel
      intro v mem
      exact Option.isNone_iff_eq_none.1 (List.all_eq_true.1 all v mem)
    have straight : ∀ s ∈ stroll.statements, s.command.goesOn = true := by decide
    obtain ⟨_, shows⟩ := stops (List.replicate 4 (1, "")) (by simp) (by decide) accepted
    obtain ⟨addresses, _, _, signals⟩ := shows straight well
    exact ⟨stroll_jumpsForward, accepted, well, addresses, signals⟩

end Machine

end Plotline

/-
Module: Plotline.Proofs.Conversation
Layer: Proofs
Purpose: A caller who lets a machine go on, round after round, and answers every input at once. If no answer
  is refused, as none is that is a number (`Machine.IsBetween.never_refused`), the machine never waits when a
  round begins (`Machine.IsBetween.round`), so that what the caller is shown (printed text, prompts and
  drawings) is exactly what the statements carried out have given, in their order
  (`Machine.IsBetween.shown`). A statement that does not fail gives what its command says.
Main exports: Signal, Event.signal?, Command.signal?, Reply.shown?, Machine.round, Machine.conversation,
  Machine.IsBetween, Machine.IsBetween.round, Machine.IsBetween.never_refused, Machine.IsBetween.shown,
  Visit.event_signal
-/
import Mathlib.Data.List.Basic
import Plotline.Proofs.Reports

namespace Plotline

/-! ### What is shown -/

/-- The kinds of what a program shows to its caller. -/
inductive Signal where
  | print
  | input
  | drawing
  deriving DecidableEq, Repr

/-- What an event shows. -/
def Event.signal? : Event → Option Signal
  | .print _ => some .print
  | .input _ => some .input
  | .drawing _ => some .drawing
  | _ => none

/-- What a command shows when it is carried out. -/
def Command.signal? : Command → Option Signal
  | .print _ | .printText _ => some .print
  | .input _ => some .input
  | .drawFinish => some .drawing
  | _ => none

/-- The event of a reply, if it shows something. -/
def Reply.shown? : Reply → Option Event
  | .event answer => if answer.signal?.isSome then some answer else none
  | .done | .accepted _ => none

namespace Machine

/-! ### A caller who answers every input -/

/-- The calls of one round: the machine goes on within a budget, and if it asks, it is answered. -/
def round (m : Machine) (budget : Nat) (answer : String) : List Call :=
  match (m.execute budget).1 with
  | .input _ => [.execute budget, .enter answer]
  | _ => [.execute budget]

/-- The calls of a schedule of rounds, each with its budget and the answer that is ready in it. -/
def conversation (m : Machine) : List (Nat × String) → List Call
  | [] => []
  | (budget, answer) :: rest =>
      m.round budget answer ++ (m.after (m.round budget answer)).conversation rest

theorem call_execute (m : Machine) (budget : Nat) :
    m.call (.execute budget) = (.event (m.execute budget).1, (m.execute budget).2) := rfl

theorem call_enter (m : Machine) (text : String) :
    m.call (.enter text) = (.accepted (m.enter text).1, (m.enter text).2) := rfl

/-- A round is one call, or a call that asks and the answer to it. -/
theorem round_eq (m : Machine) (budget : Nat) (answer : String) :
    (m.round budget answer = [.execute budget] ∧ ∀ text, (m.execute budget).1 ≠ .input text) ∨
      m.round budget answer = [.execute budget, .enter answer] ∧
        ∃ text, (m.execute budget).1 = .input text := by
  unfold round
  split
  · rename_i text asks
    exact Or.inr ⟨rfl, text, asks⟩
  · rename_i other
    exact Or.inl ⟨rfl, other⟩

/-- The call goes on or answers. -/
def Serves (c : Call) : Prop :=
  (∃ budget, c = .execute budget) ∨ ∃ text, c = .enter text

theorem loadsNothing_of_serves {calls : List Call} (serves : ∀ c ∈ calls, Serves c) :
    ∀ listing, .load listing ∉ calls := by
  intro listing mem
  rcases serves _ mem with ⟨_, other⟩ | ⟨_, other⟩
  · cases other
  · cases other

theorem round_serves (m : Machine) (budget : Nat) (answer : String) :
    ∀ c ∈ m.round budget answer, Serves c := by
  rcases m.round_eq budget answer with ⟨calls, _⟩ | ⟨calls, _⟩
  · rw [calls]
    exact List.forall_mem_singleton.2 (Or.inl ⟨budget, rfl⟩)
  · rw [calls]
    exact List.forall_mem_cons.2 ⟨Or.inl ⟨budget, rfl⟩, List.forall_mem_singleton.2 (Or.inr ⟨answer, rfl⟩)⟩

theorem conversation_serves (m : Machine) (schedule : List (Nat × String)) :
    ∀ c ∈ m.conversation schedule, Serves c := by
  induction schedule generalizing m with
  | nil => exact fun c mem => absurd mem List.not_mem_nil
  | cons first rest ih => exact List.forall_mem_append.2 ⟨m.round_serves first.1 first.2, ih _⟩

/-- An answer that is accepted lets the machine run on from where it is. -/
theorem enter_accepted {m : Machine} {text : String} (accepted : (m.enter text).1 = true) :
    (m.enter text).2.state = .running ∧ (m.enter text).2.pending = m.pending := by
  unfold enter at accepted ⊢
  split at accepted
  · split at accepted
    · cases accepted
    · split at accepted
      · cases accepted
      · exact ⟨rfl, rfl⟩
  · cases accepted

/-! ### Between two rounds -/

/-- A machine that stands between two rounds: it can be reached, and no input waits. -/
structure IsBetween (m : Machine) : Prop where
  sound : ∃ ran, IsSound ran m
  notWaiting : ∀ name, m.state ≠ .waiting name

namespace IsBetween

variable {m : Machine} {budget : Nat} {answer : String}

/-- A round in which no answer is refused asks nothing and leaves a machine that does not wait, or it asks,
    and the answer is accepted. -/
theorem round_cases (between : m.IsBetween) (accepted : .accepted false ∉ m.replies (m.round budget answer)) :
    (m.round budget answer = [.execute budget] ∧ ∀ name, (m.execute budget).2.state ≠ .waiting name) ∨
      m.round budget answer = [.execute budget, .enter answer] ∧ (m.execute budget).1 = .input prompt ∧
        (∃ name, (m.execute budget).2.state = .waiting name) ∧
        ((m.execute budget).2.enter answer).1 = true := by
  rcases m.round_eq budget answer with ⟨calls, asksNothing⟩ | ⟨calls, text, asks⟩
  · rcases execute_waits budget between.notWaiting with ⟨asks, _⟩ | ⟨_, notWaiting⟩
    · exact absurd asks (asksNothing _)
    · exact Or.inl ⟨calls, notWaiting⟩
  · rcases execute_waits budget between.notWaiting with ⟨asksHere, waiting⟩ | ⟨asksNothing, _⟩
    · simp only [calls, replies, call_execute, call_enter] at accepted
      exact Or.inr ⟨calls, asksHere, waiting, by simpa using accepted⟩
    · exact absurd asks (asksNothing text)

/-- After a round in which no answer is refused the machine is between two rounds again. -/
theorem round (between : m.IsBetween) (accepted : .accepted false ∉ m.replies (m.round budget answer)) :
    (m.after (m.round budget answer)).IsBetween := by
  obtain ⟨ran, sound⟩ := between.sound
  have went : IsSound _ (m.execute budget).2 := IsSound.isKept.call sound (.execute budget) (by simp)
  rcases between.round_cases accepted with ⟨calls, notWaiting⟩ | ⟨calls, _, _, isAccepted⟩
  · simp only [calls, after, call_execute]
    exact ⟨⟨_, went⟩, notWaiting⟩
  · simp only [calls, after, call_execute, call_enter]
    refine ⟨⟨_, went.enter answer⟩, fun name waiting => ?_⟩
    cases (enter_accepted isAccepted).1.symm.trans waiting

end IsBetween

/-- An answer that is a number is accepted wherever an input waits. -/
theorem IsSound.enter_number {ran : List Visit} {m : Machine} (sound : IsSound ran m) {name text : String}
    (waiting : m.state = .waiting name) (number : (answer? text).isSome = true) :
    (m.enter text).1 = true := by
  obtain ⟨x, isNumber⟩ := Option.isSome_iff_exists.1 number
  have located := locate_of_not_array (sound.waiting name waiting).storable
  simp [Machine.enter, waiting, isNumber, located]

/-- A caller whose answers are numbers is never refused. -/
theorem IsBetween.never_refused {m : Machine} (between : m.IsBetween) {schedule : List (Nat × String)}
    (numbers : ∀ round ∈ schedule, (answer? round.2).isSome = true) :
    .accepted false ∉ m.replies (m.conversation schedule) := by
  induction schedule generalizing m with
  | nil => exact List.not_mem_nil
  | cons first rest ih =>
      obtain ⟨number, others⟩ := List.forall_mem_cons.1 numbers
      obtain ⟨ran, sound⟩ := between.sound
      have went : IsSound _ (m.execute first.1).2 := IsSound.isKept.call sound (.execute first.1) (by simp)
      have accepted : .accepted false ∉ m.replies (m.round first.1 first.2) := by
        rcases m.round_eq first.1 first.2 with ⟨calls, _⟩ | ⟨calls, text, asks⟩
        · simp [calls, replies, call_execute]
        · rcases execute_waits first.1 between.notWaiting with ⟨_, name, waiting⟩ | ⟨asksNothing, _⟩
          · simp [calls, replies, call_execute, call_enter, went.enter_number waiting number]
          · exact absurd asks (asksNothing text)
      simp only [conversation, replies_append, List.mem_append, not_or]
      exact ⟨accepted, ih (between.round accepted) others⟩

/-! ### What a conversation shows -/

/-- What some events show. -/
def shownOf (events : List Event) : List Event :=
  events.filter (·.signal?.isSome)

theorem run_shown (budget : Nat) (m : Machine) :
    shownOf ((m.runVisits budget).filterMap Visit.event?) = shownOf [(m.run budget).1] := by
  induction budget generalizing m with
  | zero => rfl
  | succ budget ih =>
      cases found : m.program.statement? m.pc with
      | none =>
          rw [runVisits_past_end found, run_past_end found]
          rfl
      | some s =>
          rcases hstep : m.step s with ⟨event, next⟩
          have first : Visit.event? ⟨m, s⟩ = event := by rw [Visit.event?, hstep]
          cases event with
          | some event => rw [runVisits_event found hstep, run_event found hstep, List.filterMap_cons_some first,
              List.filterMap_nil]
          | none => rw [runVisits_silent found hstep, run_silent found hstep, List.filterMap_cons_none first, ih]

/-- A machine that does not wait shows what the statements give that it carries out. -/
theorem execute_shown {m : Machine} (notWaiting : ∀ name, m.state ≠ .waiting name) (budget : Nat) :
    shownOf ((m.executeVisits budget).filterMap Visit.event?) = shownOf [(m.execute budget).1] := by
  by_cases ready : m.IsReady
  · rw [ready.executeVisits_eq, ready.execute_eq_run, run_shown]
  · rw [executeVisits_of_not_ready ready]
    by_cases nothing : m.pending = []
    · cases state : m.state with
      | stopped =>
          rw [execute_of_stopped nothing state]
          rfl
      | waiting name => exact absurd state (notWaiting name)
      | running => exact absurd ⟨nothing, state⟩ ready
    · rw [execute_of_pending nothing]
      rfl

theorem shown_event (e : Event) : [Reply.event e].filterMap Reply.shown? = shownOf [e] := by
  cases e <;> rfl

theorem round_shown {m : Machine} (notWaiting : ∀ name, m.state ≠ .waiting name) (budget : Nat)
    (answer : String) :
    (m.replies (m.round budget answer)).filterMap Reply.shown? =
      shownOf ((m.visits (m.round budget answer)).filterMap Visit.event?) := by
  have event := shown_event (m.execute budget).1
  rcases m.round_eq budget answer with ⟨calls, _⟩ | ⟨calls, _⟩
  · simp only [calls, replies, visits, callVisits, call_execute, List.append_nil]
    rw [execute_shown notWaiting, event]
  · simp only [calls, replies, visits, callVisits, call_execute, call_enter, List.append_nil]
    rw [execute_shown notWaiting, ← event]
    rfl

/-- If no answer is refused, a conversation shows what the statements give that are carried out in it. -/
theorem IsBetween.shown {m : Machine} (between : m.IsBetween) {schedule : List (Nat × String)}
    (accepted : .accepted false ∉ m.replies (m.conversation schedule)) :
    (m.replies (m.conversation schedule)).filterMap Reply.shown? =
      shownOf ((m.visits (m.conversation schedule)).filterMap Visit.event?) := by
  induction schedule generalizing m with
  | nil => rfl
  | cons first rest ih =>
      simp only [conversation, replies_append, visits_append, List.mem_append, not_or,
        List.filterMap_append] at accepted ⊢
      rw [round_shown between.notWaiting, ih (between.round accepted.1) accepted.2]
      simp only [shownOf, List.filter_append]

end Machine

/-- A statement that neither fails nor ends the program gives an event exactly if its command shows something,
    and the event shows it. -/
theorem Visit.event_signal {v : Visit} (well : v.problem? = none) (goesOn : v.statement.command ≠ .halt) :
    v.event?.map Event.signal? = v.statement.command.signal?.map some := by
  rcases v with ⟨m, label, command⟩
  rcases hstep : m.step ⟨label, command⟩ with ⟨event, next⟩
  have isEvent : Visit.event? ⟨m, label, command⟩ = event := by rw [Visit.event?, hstep]
  rw [isEvent]
  rcases Machine.step_cases hstep with ⟨action, generator, planned, carried⟩ | ⟨_, _, planned, _⟩
  · cases Command.plan_returns command m.generator action generator planned with
    | halt => exact absurd rfl goesOn
    | figure f isFigure =>
        cases carried
        cases command with
        | line | plot | rectangle => rfl
        | _ => cases isFigure
    | _ =>
        cases carried
        rfl
  · simp [Visit.problem?, planned] at well

/-- So statements that neither fail nor end the program show everything they give, one event for each command
    that shows something. -/
theorem Machine.signals_of_visits {visits : List Visit} (well : ∀ v ∈ visits, v.problem? = none)
    (goesOn : ∀ v ∈ visits, v.statement.command ≠ .halt) :
    shownOf (visits.filterMap Visit.event?) = visits.filterMap Visit.event? ∧
      (visits.filterMap Visit.event?).filterMap Event.signal? =
        (visits.map (·.statement)).filterMap (·.command.signal?) := by
  have signals : ∀ v ∈ visits, v.event?.map Event.signal? = v.statement.command.signal?.map some :=
    fun v mem => v.event_signal (well v mem) (goesOn v mem)
  constructor
  · apply List.filter_eq_self.2
    intro event mem
    obtain ⟨v, visited, given⟩ := List.mem_filterMap.1 mem
    have shows := signals v visited
    rw [given, Option.map_some] at shows
    obtain ⟨signal, _, isSignal⟩ := Option.map_eq_some_iff.1 shows.symm
    rw [← isSignal]
    rfl
  · rw [List.filterMap_filterMap, List.filterMap_map]
    apply List.filterMap_congr
    intro v mem
    have shows := signals v mem
    cases given : v.event? with
    | none =>
        rw [given] at shows
        exact (Option.map_eq_none_iff.1 shows.symm).symm
    | some event =>
        rw [given, Option.map_some] at shows
        obtain ⟨signal, isSignal, same⟩ := Option.map_eq_some_iff.1 shows.symm
        exact same.symm.trans isSignal.symm

end Plotline

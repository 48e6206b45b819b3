/-
Module: Plotline.Proofs.RefusedAnswers
Layer: Proofs
Purpose: Refused answers are invisible to the program. Whoever serves a session and passes it refused answers
  could as well have left them out. The dialogue of a run falls into passages (`Passage`): texts that are
  written, and questions, each with the lines that it refuses before it is answered or the input ends. A
  refused line costs two turns, in which it is noted and the note is shown, and leads back to the session that
  asked (`Session.IsAsked.next_refused`). So a passage leads to the same session with the refused lines and
  without them (`Invocation.exists_passage`), and what is shown differs by the notes only.
Main exports: Exchange, Invocation.dialogue, Passage, World.facing, Session.IsCalm, Session.IsAsked,
  Invocation.Passes, Invocation.exists_passage, Invocation.refused_answers_invisible
-/
import Plotline.Proofs.Refusal
import Plotline.Proofs.Service

namespace Plotline

/-! ### Dialogues -/

/-- What passes between a session and the outside in one turn. -/
inductive Exchange where
  /-- Nothing was asked; the text, which may be empty, was written. -/
  | wrote (text : String)
  /-- An input that waited took the line for an answer. -/
  | accepted (line : String)
  /-- An input that waited refused the line. -/
  | refused (line : String)
  /-- An input that waited found no line to be read. -/
  | unanswered
  deriving DecidableEq, Repr

/-- What a request writes to standard output, apart from a prompt. -/
def Request.text : Request → String
  | .write text => text
  | _ => ""

/-- What becomes of the next line of input when a session has asked for it. -/
def Session.exchange (s : Session) : List (Except String String) → Exchange
  | .ok line :: _ => if (s.machine.enter line).1 then .accepted line else .refused line
  | _ => .unanswered

namespace Invocation

variable {σ : Type}

/-- What passes in the next turn. -/
def exchange (s : Session) (w : World σ) : Exchange :=
  match s.next.1 with
  | .ask _ => s.next.2.exchange w.input
  | request => .wrote request.text

/-- What passes in some turns, one after the other, while the session goes on. -/
def dialogue [FileSystem σ] (i : Invocation) : Nat → Session → World σ → List Exchange
  | 0, _, _ => []
  | turns + 1, s, w =>
      match i.turn s w with
      | .ongoing next after => exchange s w :: i.dialogue turns next after
      | .exited _ _ => []

end Invocation

/-! ### Passages -/

/-- A piece of a dialogue: a text that is written, or a question with the lines that it refuses and the line
    that it accepts in the end, unless the input ends first. -/
inductive Passage where
  | wrote (text : String)
  | question (refused : List String) (reply : Option String)
  deriving DecidableEq, Repr

namespace Passage

/-- The exchanges that make up a passage. After each refused line the note is written. -/
def exchanges : Passage → List Exchange
  | wrote text => [.wrote text]
  | question refused reply =>
      (refused.flatMap fun line => [.refused line, .wrote Machine.redoText]) ++
        [match reply with
          | some line => .accepted line
          | none => .unanswered]

/-- The lines of input that a passage uses up. -/
def lines : Passage → List String
  | wrote _ => []
  | question refused reply => refused ++ reply.toList

/-- The lines that a passage refuses. -/
def refused : Passage → List String
  | wrote _ => []
  | question refused _ => refused

/-- What a passage leaves on standard output: for a question the prompt, and right after it, for each refused
    line, the note with the prompt shown again. -/
def shown : Passage → String
  | wrote text => text
  | question refused _ =>
      Machine.prompt ++ String.join (refused.map fun _ => Machine.redoText ++ Machine.prompt)

/-- The passage without the lines that it refuses. -/
def direct : Passage → Passage
  | wrote text => wrote text
  | question _ reply => question [] reply

theorem shown_cons (line : String) (refused : List String) (reply : Option String) :
    (question (line :: refused) reply).shown =
      Machine.prompt ++ (Machine.redoText ++ (question refused reply).shown) := by
  simp [shown, String.append_assoc]

/-- Lines that can follow a passage: a question stays unanswered only when there are none. -/
def Admits (rest : List String) : Passage → Prop
  | wrote _ => True
  | question _ reply => reply = none → rest = []

theorem direct_lines_sublist (passages : List Passage) :
    ((passages.map direct).flatMap lines).Sublist (passages.flatMap lines) := by
  induction passages with
  | nil => exact .slnil
  | cons p rest ih =>
      rw [List.map_cons, List.flatMap_cons, List.flatMap_cons]
      refine List.Sublist.append ?_ ih
      cases p with
      | wrote => exact .refl _
      | question refused reply => exact List.sublist_append_right refused reply.toList

/-- A question that stays unanswered when there are no lines does so when there are fewer. -/
theorem Admits.direct {p : Passage} {lines fewer : List String} (admits : p.Admits lines)
    (sublist : fewer.Sublist lines) : p.direct.Admits fewer := by
  cases p with
  | wrote => trivial
  | question refused reply =>
      intro none
      rw [admits none] at sublist
      exact List.sublist_nil.1 sublist

theorem length_exchanges_pos (p : Passage) : 0 < p.exchanges.length := by
  cases p with
  | wrote => exact Nat.one_pos
  | question => simp [exchanges]

/-- Each refused line takes up two exchanges. -/
theorem length_exchanges (passages : List Passage) :
    (passages.flatMap exchanges).length =
      ((passages.map direct).flatMap exchanges).length + 2 * (passages.flatMap Passage.refused).length := by
  have each : ∀ p : Passage, p.exchanges.length = p.direct.exchanges.length + 2 * p.refused.length := by
    intro p
    cases p with
    | wrote => rfl
    | question refused reply =>
        have notes : (refused.flatMap fun line => [Exchange.refused line, .wrote Machine.redoText]).length =
            2 * refused.length := by
          simp [List.length_flatMap, List.map_const', Nat.mul_comm]
        simp [exchanges, direct, Passage.refused, notes, Nat.add_comm]
  induction passages with
  | nil => rfl
  | cons p rest ih =>
      have first := each p
      simp only [List.map_cons, List.flatMap_cons, List.length_append]
      omega

end Passage

/-! ### Worlds -/

/-- The world with the given lines to be read and text written so far. -/
def World.facing {σ : Type} (w : World σ) (lines : List String) (output : String) : World σ :=
  { w with input := lines.map .ok, output }

/-- How a request was served, with the given lines left to be read and text written so far. -/
def World.Served.facing {σ : Type} (lines : List String) (output : String) : Served σ → Served σ
  | ongoing s w => ongoing s (w.facing lines output)
  | exited status w => exited status (w.facing lines output)

/-! ### Machines that ask -/

namespace Machine

/-- A machine that does not wait keeps the note whether an answer was refused. -/
theorem execute_redo {m : Machine} (budget : Nat) (notWaiting : ∀ name, m.state ≠ .waiting name) :
    (m.execute budget).2.redo = m.redo := by
  by_cases nothing : m.pending = []
  · cases state : m.state with
    | stopped => rw [execute_of_stopped nothing state]
    | waiting name => exact absurd state (notWaiting name)
    | running =>
        have ready : m.IsReady := ⟨nothing, state⟩
        rw [ready.execute_eq_run, run_redo]
  · rw [execute_of_pending nothing]

end Machine

/-! ### Sessions -/

namespace Session

open Machine (IsSound prompt redoText)

/-- A session whose machine does not wait and has no refused answer to show. -/
structure IsCalm (s : Session) : Prop where
  sound : ∃ ran, IsSound ran s.machine
  notWaiting : ∀ name, s.machine.state ≠ .waiting name
  noNote : s.machine.redo = false

/-- A session whose machine has shown its prompt. -/
structure IsAsked (s : Session) : Prop where
  sound : ∃ ran, IsSound ran s.machine
  asking : s.machine.IsAsking
  noNote : s.machine.redo = false

/-- The session after a question has been answered, or the input has ended. -/
def replied (s : Session) : Option String → Session
  | some line => s.answered line
  | none => s.endOfInput

theorem IsCalm.start (generator : Generator) (listing : Listing) : (start generator listing).IsCalm where
  sound := ⟨[], IsSound.load _ listing⟩
  notWaiting name := by simp [Session.start, Machine.load]
  noNote := rfl

variable {s : Session}

/-- A calm session stays calm unless it asks. -/
theorem IsCalm.next (calm : s.IsCalm) :
    (s.next.1 = .ask prompt ∧ s.next.2.IsAsked) ∨
      (∀ text, s.next.1 ≠ .ask text) ∧ s.next.2.IsCalm := by
  obtain ⟨ran, sound⟩ := calm.sound
  have stays : ∃ ran, IsSound ran s.next.2.machine := by
    rw [next_machine]
    exact ⟨_, IsSound.isKept.call sound (.execute budget) (by simp)⟩
  have noNote : s.next.2.machine.redo = false := by
    rw [next_machine, Machine.execute_redo budget calm.notWaiting, calm.noNote]
  have waits := Machine.execute_waits budget calm.notWaiting
  rw [← next_machine] at waits
  rcases waits with ⟨asks, name, waiting⟩ | ⟨asksNothing, notWaiting⟩
  · refine Or.inl ⟨?_, stays, ?_, noNote⟩
    · rw [next_request, asks]
      rfl
    · obtain ⟨_, after⟩ := stays
      exact ⟨(after.waiting name waiting).pending, name, waiting⟩
  · refine Or.inr ⟨?_, stays, notWaiting, noNote⟩
    intro text asks
    rw [next_request, Event.request_eq_ask] at asks
    exact asksNothing text asks

/-- A session whose program has been stopped by a report is calm. -/
theorem IsCalm.of_fail (sound : ∃ ran, IsSound ran s.machine) (noNote : s.machine.redo = false)
    (problem : Diagnostic) : IsCalm { s with machine := s.machine.fail problem } := by
  obtain ⟨ran, sound⟩ := sound
  exact ⟨⟨ran, sound.fail problem⟩, by simp [Machine.fail, Machine.abandon], noNote⟩

namespace IsAsked

theorem next (asked : s.IsAsked) : s.next = (.ask prompt, s) := by
  simp only [Session.next, asked.asking.execute_eq asked.noNote]

theorem storable (asked : s.IsAsked) :
    ∃ name, s.machine.state = .waiting name ∧ s.machine.memory.isArray name = false := by
  obtain ⟨_, sound⟩ := asked.sound
  obtain ⟨name, waiting⟩ := asked.asking.waiting
  exact ⟨name, waiting, (sound.waiting name waiting).storable⟩

/-- A refused line leaves its note and nothing else. -/
theorem answered_refused (asked : s.IsAsked) {line : String}
    (isRefused : (s.machine.enter line).1 = false) :
    s.answered line = { s with machine := s.machine.withRedo true } := by
  obtain ⟨name, waiting, storable⟩ := asked.storable
  rw [answered]
  rw [Machine.enter_of_waiting waiting storable] at isRefused ⊢
  split at isRefused
  · rfl
  · cases isRefused

/-- Once the note of a refused line is shown, the session has asked as before. -/
theorem next_refused (asked : s.IsAsked) {line : String} (isRefused : (s.machine.enter line).1 = false) :
    (s.answered line).next = (.write redoText, s) := by
  rw [asked.answered_refused isRefused]
  simp only [Session.next, asked.asking.execute_withRedo, Machine.withRedo_of_eq asked.noNote]

theorem accepted (asked : s.IsAsked) {line : String} (isAccepted : (s.machine.enter line).1 = true) :
    (s.answered line).IsCalm := by
  obtain ⟨ran, sound⟩ := asked.sound
  obtain ⟨name, waiting, storable⟩ := asked.storable
  have entered := Machine.enter_of_waiting waiting storable line
  rw [entered] at isAccepted
  split at isAccepted
  · cases isAccepted
  · rename_i number
    rw [number] at entered
    refine ⟨⟨ran, sound.enter line⟩, ?_, ?_⟩
    · simp [answered, entered]
    · rw [answered, entered]
      exact asked.noNote

/-- Once it has been answered, or the input has ended, a session is calm. -/
theorem replied (asked : s.IsAsked) {reply : Option String}
    (accepts : ∀ line ∈ reply, (s.machine.enter line).1 = true) : (s.replied reply).IsCalm := by
  cases reply with
  | some line => exact asked.accepted (accepts line rfl)
  | none => exact .of_fail asked.sound asked.noNote _

end IsAsked

end Session

/-! ### Turns that go on -/

namespace Invocation

open Machine (prompt redoText)
open World (Served)

variable {σ : Type}

theorem exchange_quiet {s : Session} (asksNothing : ∀ text, s.next.1 ≠ .ask text) (w : World σ) :
    exchange s w = .wrote s.next.1.text := by
  unfold exchange
  split
  · rename_i text asks
    exact absurd asks (asksNothing text)
  · rfl

theorem exchange_ask {s t : Session} (asks : t.next = (.ask prompt, s)) (w : World σ) :
    exchange t w = s.exchange w.input := by
  rw [exchange, asks]

variable [FileSystem σ]

/-- Some turns, one after the other, in which the session goes on, with what passes in them. -/
inductive Goes (i : Invocation) :
    Session → World σ → List Exchange → Session → World σ → Prop where
  | nil (s : Session) (w : World σ) : Goes i s w [] s w
  | cons {s next last : Session} {w after final : World σ} {rest : List Exchange}
      (went : i.turn s w = .ongoing next after) (more : Goes i next after rest last final) :
      Goes i s w (exchange s w :: rest) last final

namespace Goes

variable {i : Invocation} {s next last : Session} {w after final : World σ} {first second : List Exchange}

theorem append (goes : i.Goes s w first next after) (more : i.Goes next after second last final) :
    i.Goes s w (first ++ second) last final := by
  induction goes with
  | nil => exact more
  | cons went _ ih => exact .cons went (ih more)

theorem progress (goes : i.Goes s w first next after) (turns : Nat) :
    i.progress (turns + first.length) s w = i.progress turns next after := by
  induction goes with
  | nil => rfl
  | cons went _ ih =>
      rw [List.length_cons, ← Nat.add_assoc, progress_ongoing went]
      exact ih

theorem dialogue (goes : i.Goes s w first next after) (turns : Nat) :
    i.dialogue (turns + first.length) s w = first ++ i.dialogue turns next after := by
  induction goes with
  | nil => rfl
  | cons went _ ih =>
      rw [List.length_cons, ← Nat.add_assoc, Invocation.dialogue, went]
      exact congrArg _ ih

end Goes

/-- A passage leads from one session to another, whatever has been written and whatever comes after the lines
    of the passage. -/
def Passes (i : Invocation) (s : Session) (w : World σ) (p : Passage) (next : Session) (after : World σ) : Prop :=
  ∀ rest output, p.Admits rest →
    i.Goes s (w.facing (p.lines ++ rest) output) p.exchanges next (after.facing rest (output ++ p.shown))

/-- The next turn ends the program, whatever has been written and whatever there is to be read. -/
def Exits (i : Invocation) (s : Session) (w : World σ) (status : Nat) : Prop :=
  ∀ lines output, i.turn s (w.facing lines output) = .exited status (w.facing lines output)

variable {i : Invocation} {s t : Session} {w : World σ}

/-- A request that asks nothing is served alike whatever there is to be read. -/
theorem serve_quiet (i : Invocation) {request : Request} (asksNothing : ∀ text, request ≠ .ask text)
    (goesOn : request ≠ .finish) (calm : s.IsCalm) (w : World σ) :
    ∃ (next : Session) (after : World σ), next.IsCalm ∧ ∀ lines output,
      (w.facing lines output).serve i s request =
        .ongoing next (after.facing lines (output ++ request.text)) := by
  cases request with
  | proceed => exact ⟨s, w, calm, fun _ _ => by simp [World.serve, Request.text]⟩
  | write text => exact ⟨s, w, calm, fun _ _ => rfl⟩
  | ask text => exact absurd rfl (asksNothing text)
  | report problems =>
      exact ⟨s, w.complain (Session.reportText problems), calm, fun _ _ => by
        simp [World.serve, Request.text, World.complain, World.facing]⟩
  | save document =>
      have clock : ∀ lines output, (w.facing lines output).clock = w.clock := fun _ _ => rfl
      have saves : ∀ lines output, (w.facing lines output).saves = w.saves := fun _ _ => rfl
      have files : ∀ lines output, (w.facing lines output).files = w.files := fun _ _ => rfl
      simp only [World.serve, World.saveDrawing, clock, saves, files, Request.text, String.append_empty]
      rcases FileSystem.save w.files (i.drawingPath (w.clock w.saves.length)) document.toUTF8.toList with
        ⟨outcome, files⟩
      cases outcome with
      | ok =>
          exact ⟨s, { w with files, saves := w.saves ++ [⟨_, document, none⟩] }, calm, fun _ _ => rfl⟩
      | error problem =>
          exact ⟨_, { w with files, saves := w.saves ++ [⟨_, document, some problem⟩] },
            .of_fail calm.sound calm.noNote _, fun _ _ => rfl⟩
  | finish => exact absurd rfl goesOn

/-- A calm session that asks nothing exits, or writes a text and is calm again. -/
theorem exists_quiet (i : Invocation) (calm : s.next.2.IsCalm) (asksNothing : ∀ text, s.next.1 ≠ .ask text)
    (w : World σ) :
    (∃ status, i.Exits s w status) ∨
      ∃ next after, next.IsCalm ∧ i.Passes s w (.wrote s.next.1.text) next after := by
  by_cases finishes : s.next.1 = .finish
  · refine Or.inl ⟨s.next.2.status, ?_⟩
    intro lines output
    rw [turn, finishes]
    rfl
  · obtain ⟨next, after, calm, served⟩ := serve_quiet i asksNothing finishes calm w
    refine Or.inr ⟨next, after, calm, ?_⟩
    intro rest output _
    have went := Goes.cons (served rest output) (.nil _ _)
    rw [exchange_quiet asksNothing] at went
    exact went

/-! ### Questions -/

theorem turn_line (i : Invocation) (w : World σ) (asks : t.next = (.ask prompt, s)) (line : String)
    (lines : List String) (output : String) :
    i.turn t (w.facing (line :: lines) output) =
      .ongoing (s.answered line) (w.facing lines (output ++ prompt)) := by
  rw [turn, asks]
  rfl

theorem turn_noted (i : Invocation) (w : World σ) (asked : s.IsAsked) {line : String}
    (isRefused : (s.machine.enter line).1 = false) (lines : List String) (output : String) :
    i.turn (s.answered line) (w.facing lines output) =
      .ongoing s (w.facing lines (output ++ redoText)) := by
  rw [turn, asked.next_refused isRefused]
  rfl

/-- A question that refuses nothing takes one turn. -/
theorem passes_reply (asks : t.next = (.ask prompt, s)) {reply : Option String}
    (accepts : ∀ line ∈ reply, (s.machine.enter line).1 = true) :
    i.Passes t w (.question [] reply) (s.replied reply) w := by
  intro rest output admits
  rw [Passage.shown, List.map_nil, String.join_nil, String.append_empty]
  cases reply with
  | none =>
      obtain rfl : rest = [] := admits rfl
      have went : i.turn t (w.facing [] output) =
          .ongoing s.endOfInput (w.facing [] (output ++ prompt)) := by
        rw [turn, asks]
        rfl
      have goes := Goes.cons went (.nil _ _)
      rw [exchange_ask asks] at goes
      exact goes
  | some line =>
      have goes := Goes.cons (turn_line i w asks line rest output) (.nil _ _)
      have taken : exchange t (w.facing (line :: rest) output) = .accepted line := by
        rw [exchange_ask asks]
        exact if_pos (accepts line rfl)
      rw [taken] at goes
      exact goes

/-- A question leads from the session that asks to the one that was answered, whatever it refuses. -/
theorem passes_question (asks : t.next = (.ask prompt, s)) (asked : s.IsAsked) {refused : List String}
    (refusals : ∀ line ∈ refused, (s.machine.enter line).1 = false) {reply : Option String}
    (accepts : ∀ line ∈ reply, (s.machine.enter line).1 = true) :
    i.Passes t w (.question refused reply) (s.replied reply) w := by
  induction refused generalizing t with
  | nil => exact passes_reply asks accepts
  | cons line others ih =>
      intro rest output admits
      obtain ⟨isRefused, refusals⟩ := List.forall_mem_cons.1 refusals
      have said : exchange t (w.facing (line :: ((Passage.question others reply).lines ++ rest)) output) =
          .refused line := by
        rw [exchange_ask asks]
        exact if_neg (by simp [isRefused])
      have noted : ∀ after : World σ, exchange (s.answered line) after = .wrote redoText := by
        intro after
        rw [exchange, asked.next_refused isRefused]
        rfl
      -- The note leads back to the session that asked, which asks again.
      have goes := Goes.cons (turn_line i w asks line _ output)
        (Goes.cons (turn_noted i w asked isRefused _ _) (ih asked.next refusals rest _ admits))
      rw [said, noted] at goes
      rw [Passage.shown_cons]
      simp only [String.append_assoc] at goes
      exact goes

/-- Where a session has come to a point at which it does not wait, a question that it asked on the way was
    answered there, or the input ended. -/
theorem exists_question (asked : s.IsAsked) {lines : List String} {turns : Nat} {output : String}
    (asks : t.next = (.ask prompt, s))
    (settled : ∀ next after, i.progress (turns + 1) t (w.facing lines output) = .ongoing next after →
      ∀ name, next.machine.state ≠ .waiting name) :
    ∃ refused reply rest left, lines = refused ++ reply.toList ++ rest ∧
      (Passage.question refused reply).Admits rest ∧
      turns + 1 = left + (Passage.question refused reply).exchanges.length ∧
      (∀ line ∈ refused, (s.machine.enter line).1 = false) ∧
      ∀ line ∈ reply, (s.machine.enter line).1 = true := by
  induction lines generalizing t turns output with
  | nil => exact ⟨[], none, [], turns, rfl, fun _ => rfl, rfl, by simp, by simp⟩
  | cons line others ih =>
      cases answer : (s.machine.enter line).1 with
      | true => exact ⟨[], some line, others, turns, rfl, nofun, rfl, by simp, by simpa using answer⟩
      | false =>
          rw [progress_ongoing (turn_line i w asks line others output)] at settled
          obtain ⟨name, waiting⟩ := asked.asking.waiting
          cases turns with
          | zero =>
              rw [asked.answered_refused answer] at settled
              exact absurd waiting (settled _ _ rfl name)
          | succ turns =>
              rw [progress_ongoing (turn_noted i w asked answer _ _)] at settled
              cases turns with
              | zero => exact absurd waiting (settled _ _ rfl name)
              | succ turns =>
                  obtain ⟨refused, reply, rest, left, rfl, admits, enough, refusals, accepts⟩ :=
                    ih asked.next settled
                  have longer : (Passage.question (line :: refused) reply).exchanges.length =
                      (Passage.question refused reply).exchanges.length + 2 := rfl
                  exact ⟨line :: refused, reply, rest, left, rfl, admits, by omega,
                    List.forall_mem_cons.2 ⟨answer, refusals⟩, accepts⟩

/-! ### Runs -/

/-- The turns of a calm session that come to a point at which it does not wait begin with a passage, which leads
    to the same calm session with the lines that it refuses and without them, unless the first of them ends the
    program. -/
theorem exists_passage (calm : s.IsCalm) {lines : List String} {turns : Nat} {output : String}
    (settled : ∀ next after, i.progress (turns + 1) s (w.facing lines output) = .ongoing next after →
      ∀ name, next.machine.state ≠ .waiting name) :
    (∃ status, i.Exits s w status) ∨
      ∃ p rest left next after, lines = p.lines ++ rest ∧ p.Admits rest ∧
        turns + 1 = left + p.exchanges.length ∧ next.IsCalm ∧
        i.Passes s w p next after ∧ i.Passes s w p.direct next after := by
  rcases calm.next with ⟨asks, asked⟩ | ⟨asksNothing, later⟩
  · have asks : s.next = (.ask prompt, s.next.2) := Prod.ext asks rfl
    obtain ⟨refused, reply, rest, left, split, admits, enough, refusals, accepts⟩ :=
      exists_question asked asks settled
    exact Or.inr ⟨.question refused reply, rest, left, s.next.2.replied reply, w, split, admits, enough,
      asked.replied accepts, passes_question asks asked refusals accepts, passes_reply asks accepts⟩
  · rcases exists_quiet i later asksNothing w with exits | ⟨next, after, calm, passes⟩
    · exact Or.inl exits
    · exact Or.inr ⟨.wrote s.next.1.text, lines, turns, next, after, rfl, trivial, rfl, calm, passes, passes⟩

/-- Passages that lead from one session to another, with the lines that they refuse and without them. -/
structure Unfolds (i : Invocation) (s : Session) (w : World σ) (lines : List String) (passages : List Passage)
    (unread : List String) (next : Session) (after : World σ) : Prop where
  lines_eq : lines = passages.flatMap Passage.lines ++ unread
  full : ∀ output, i.Goes s (w.facing lines output) (passages.flatMap Passage.exchanges) next
    (after.facing unread (output ++ String.join (passages.map Passage.shown)))
  direct : ∀ output,
    i.Goes s (w.facing ((passages.map Passage.direct).flatMap Passage.lines ++ unread) output)
      ((passages.map Passage.direct).flatMap Passage.exchanges) next
      (after.facing unread (output ++ String.join ((passages.map Passage.direct).map Passage.shown)))

theorem Unfolds.nil (i : Invocation) (s : Session) (w : World σ) (lines : List String) :
    i.Unfolds s w lines [] lines s w where
  lines_eq := rfl
  full output := by
    rw [List.map_nil, String.join_nil, String.append_empty]
    exact .nil s _
  direct output := by
    rw [List.map_nil, List.map_nil, String.join_nil, String.append_empty]
    exact .nil s _

theorem Unfolds.cons {next last : Session} {after final : World σ} {p : Passage} {rest unread : List String}
    {passages : List Passage} (admits : p.Admits rest) (passes : i.Passes s w p next after)
    (passesDirect : i.Passes s w p.direct next after)
    (more : i.Unfolds next after rest passages unread last final) :
    i.Unfolds s w (p.lines ++ rest) (p :: passages) unread last final where
  lines_eq := by rw [more.lines_eq, List.flatMap_cons, List.append_assoc]
  full output := by
    have goes := (passes rest output admits).append (more.full _)
    rw [String.append_assoc, ← String.join_cons] at goes
    exact goes
  direct output := by
    have fewer := (Passage.direct_lines_sublist passages).append_right unread
    rw [← more.lines_eq] at fewer
    have goes := (passesDirect _ output (admits.direct fewer)).append (more.direct _)
    rw [String.append_assoc, ← String.join_cons, ← List.append_assoc] at goes
    exact goes

/-- The turns of a calm session that come to a point at which it does not wait are passages, after which the
    turns are used up or the next one ends the program. -/
theorem exists_unfolds (turns : Nat) {s : Session} {w : World σ} (calm : s.IsCalm) {lines : List String}
    {output : String}
    (settled : ∀ next after, i.progress turns s (w.facing lines output) = .ongoing next after →
      ∀ name, next.machine.state ≠ .waiting name) :
    ∃ passages unread left next after, i.Unfolds s w lines passages unread next after ∧
      turns = left + (passages.flatMap Passage.exchanges).length ∧
      (left = 0 ∨ ∃ status, i.Exits next after status) := by
  -- A passage takes at least one turn, so there are fewer turns left after it.
  induction turns using Nat.strongRecOn generalizing s w lines output with
  | ind turns ih =>
      cases turns with
      | zero => exact ⟨[], lines, 0, s, w, .nil i s w lines, rfl, Or.inl rfl⟩
      | succ turns =>
          rcases exists_passage calm settled with
            exits | ⟨p, rest, left, next, after, rfl, admits, used, calm, passes, passesDirect⟩
          · exact ⟨[], lines, turns + 1, s, w, .nil i s w lines, rfl, Or.inr exits⟩
          · rw [used, (passes rest output admits).progress] at settled
            have some := p.length_exchanges_pos
            obtain ⟨passages, unread, left', last, final, more, used', ends⟩ :=
              ih left (by omega) calm settled
            refine ⟨p :: passages, unread, left', last, final, .cons admits passes passesDirect more, ?_,
              ends⟩
            rw [List.flatMap_cons, List.length_append]
            omega

/-- When the turns are used up or the next one ends the program, nothing more passes, and the outcome does not
    depend on what has been written and what there is to be read. -/
theorem exists_outcome {left : Nat} (ends : left = 0 ∨ ∃ status, i.Exits s w status) :
    ∃ outcome : Served σ, ∀ lines output,
      i.progress left s (w.facing lines output) = outcome.facing lines output ∧
        i.dialogue left s (w.facing lines output) = [] := by
  cases left with
  | zero => exact ⟨.ongoing s w, fun _ _ => ⟨rfl, rfl⟩⟩
  | succ left =>
      obtain ⟨status, exits⟩ := ends.resolve_left (Nat.succ_ne_zero left)
      refine ⟨.exited status w, fun lines output => ⟨?_, ?_⟩⟩
      · exact progress_exited (exits lines output) left
      · rw [dialogue, exits]

/-- A calm session that comes to a point at which it does not wait comes to the same point without the refused
    lines, two turns earlier for each of them. -/
theorem exists_direct {turns : Nat} (calm : s.IsCalm) {lines : List String} {output : String}
    (settled : ∀ next after, i.progress turns s (w.facing lines output) = .ongoing next after →
      ∀ name, next.machine.state ≠ .waiting name) :
    ∃ (passages : List Passage) (unread : List String) (fewer : Nat) (outcome : Served σ),
      turns = fewer + 2 * (passages.flatMap Passage.refused).length ∧
      lines = passages.flatMap Passage.lines ++ unread ∧
      i.dialogue turns s (w.facing lines output) = passages.flatMap Passage.exchanges ∧
      i.progress turns s (w.facing lines output) =
        outcome.facing unread (output ++ String.join (passages.map Passage.shown)) ∧
      let direct := passages.map Passage.direct
      i.dialogue fewer s (w.facing (direct.flatMap Passage.lines ++ unread) output) =
        direct.flatMap Passage.exchanges ∧
      i.progress fewer s (w.facing (direct.flatMap Passage.lines ++ unread) output) =
        outcome.facing unread (output ++ String.join (direct.map Passage.shown)) := by
  obtain ⟨passages, unread, left, next, after, unfolds, rfl, ends⟩ := exists_unfolds turns calm settled
  obtain ⟨outcome, ended⟩ := exists_outcome ends
  have full := unfolds.full output
  have direct := unfolds.direct output
  refine ⟨passages, unread, left + ((passages.map Passage.direct).flatMap Passage.exchanges).length, outcome,
    ?_, unfolds.lines_eq, ?_, ?_, ?_, ?_⟩
  · rw [Passage.length_exchanges, Nat.add_assoc]
  · rw [full.dialogue, (ended _ _).2, List.append_nil]
  · rw [full.progress, (ended _ _).1]
  · rw [direct.dialogue, (ended _ _).2, List.append_nil]
  · rw [direct.progress, (ended _ _).1]

/-- Refused answers are invisible to the program. Serve the session of any listing with any lines to be read,
    on any files and under any clock, until it exits. Its dialogue is made up of passages. Without the lines
    that are refused in them it exits too, with the same status and the same world but for what is on standard
    output: the same text on standard error, the same drawings kept or failed to be kept, in the same order,
    and the same files. On standard output each refused line stands as one more note with the prompt after it,
    right after the prompt that it answered. The same holds of a session that goes on, at every point at which
    it does not wait, where each refused line has cost two turns. -/
theorem refused_answers_invisible (i : Invocation) (generator : Generator) (listing : Listing) (w : World σ)
    (lines : List String) :
    let s := Session.start generator listing
    (∀ turns status after, i.serveAll turns s (w.facing lines w.output) = some (status, after) →
      ∃ (passages : List Passage) (unread : List String) (fewer : Nat),
        lines = passages.flatMap Passage.lines ++ unread ∧
        i.dialogue turns s (w.facing lines w.output) = passages.flatMap Passage.exchanges ∧
        after.output = w.output ++ String.join (passages.map Passage.shown) ∧
        let direct := passages.map Passage.direct
        i.dialogue fewer s (w.facing (direct.flatMap Passage.lines ++ unread) w.output) =
          direct.flatMap Passage.exchanges ∧
        i.serveAll fewer s (w.facing (direct.flatMap Passage.lines ++ unread) w.output) =
          some (status, { after with output := w.output ++ String.join (direct.map Passage.shown) })) ∧
    ∀ turns next after, i.progress turns s (w.facing lines w.output) = .ongoing next after →
      (∀ name, next.machine.state ≠ .waiting name) →
      ∃ (passages : List Passage) (unread : List String) (fewer : Nat),
        turns = fewer + 2 * (passages.flatMap Passage.refused).length ∧
        lines = passages.flatMap Passage.lines ++ unread ∧
        i.dialogue turns s (w.facing lines w.output) = passages.flatMap Passage.exchanges ∧
        after.output = w.output ++ String.join (passages.map Passage.shown) ∧
        let direct := passages.map Passage.direct
        i.dialogue fewer s (w.facing (direct.flatMap Passage.lines ++ unread) w.output) =
          direct.flatMap Passage.exchanges ∧
        i.progress fewer s (w.facing (direct.flatMap Passage.lines ++ unread) w.output) =
          .ongoing next { after with output := w.output ++ String.join (direct.map Passage.shown) } := by
  intro s
  have calm : s.IsCalm := .start generator listing
  constructor
  · intro turns status after exits
    rw [serveAll_eq_some] at exits
    obtain ⟨passages, unread, fewer, outcome, _, split, said, full, saidDirect, direct⟩ :=
      exists_direct calm (fun _ _ ongoing => by cases exits.symm.trans ongoing)
    rw [exits] at full
    cases outcome with
    | ongoing => cases full
    | exited status final =>
        cases full
        exact ⟨passages, unread, fewer, split, said, rfl, saidDirect, serveAll_eq_some.2 direct⟩
  · intro turns next after ongoing notWaiting
    obtain ⟨passages, unread, fewer, outcome, earlier, split, said, full, saidDirect, direct⟩ :=
      exists_direct calm (fun _ _ same => by cases ongoing.symm.trans same; exact notWaiting)
    rw [ongoing] at full
    cases outcome with
    | ongoing next final =>
        cases full
        exact ⟨passages, unread, fewer, earlier, split, said, rfl, saidDirect, direct⟩
    | exited => cases full

end Invocation

end Plotline

/-
Module: Plotline.Proofs.Service
Layer: Proofs
Purpose: Serving a session turn by turn. A turn lets the machine go on and serves the request that its event
  turns into; `Invocation.progress` is how far the session has come after some turns, whether it has exited
  or not. Serving a session to the end is following its progress until it has exited.
Main exports: Event.request, Session.next_request, Session.next_machine, Invocation.turn,
  Invocation.progress, Invocation.serveAll_eq
-/
import Plotline.World

namespace Plotline

/-! ### Requests -/

/-- What a session asks for when its machine has answered with an event. -/
def Event.request : Event → Request
  | .stopped => .finish
  | .running => .proceed
  | .print text => .write text
  | .input prompt => .ask prompt
  | .errors problems => .report problems
  | .drawing document => .save document
  | .ended => .write Session.endText

theorem Event.request_eq_ask {event : Event} {prompt : String} :
    event.request = .ask prompt ↔ event = .input prompt := by
  cases event <;> simp [request]

namespace Session

theorem next_request (s : Session) : s.next.1 = (s.machine.execute budget).1.request := by
  rcases executed : s.machine.execute budget with ⟨event, machine⟩
  cases event <;> simp [next, executed, Event.request]

theorem next_machine (s : Session) : s.next.2.machine = (s.machine.execute budget).2 := by
  rcases executed : s.machine.execute budget with ⟨event, machine⟩
  cases event <;> simp [next, executed]

end Session

/-! ### Turns -/

namespace World.Served

/-- The exit status and the world of a program that has exited. -/
def exit? {σ : Type} : Served σ → Option (Nat × World σ)
  | ongoing _ _ => none
  | exited status w => some (status, w)

end World.Served

namespace Invocation

open World (Served)

variable {σ : Type} [FileSystem σ]

/-- Lets a session go on to its next request and serves it. -/
def turn (i : Invocation) (s : Session) (w : World σ) : Served σ :=
  w.serve i s.next.2 s.next.1

/-- How far a session has come after some turns. -/
def progress (i : Invocation) : Nat → Session → World σ → Served σ
  | 0, s, w => .ongoing s w
  | turns + 1, s, w =>
      match i.turn s w with
      | .ongoing s w => i.progress turns s w
      | .exited status w => .exited status w

variable {i : Invocation} {s next : Session} {w after : World σ} {status : Nat}

theorem progress_ongoing (went : i.turn s w = .ongoing next after) (turns : Nat) :
    i.progress (turns + 1) s w = i.progress turns next after := by
  simp only [progress, went]

theorem progress_exited (went : i.turn s w = .exited status after) (turns : Nat) :
    i.progress (turns + 1) s w = .exited status after := by
  simp only [progress, went]

/-- Serving a session until it exits is following its progress. -/
theorem serveAll_eq (i : Invocation) (turns : Nat) (s : Session) (w : World σ) :
    i.serveAll turns s w = (i.progress turns s w).exit? := by
  induction turns generalizing s w with
  | zero => rfl
  | succ turns ih =>
      cases went : i.turn s w with
      | ongoing next after =>
          rw [progress_ongoing went, ← ih]
          rw [turn] at went
          simp only [serveAll, went]
      | exited status after =>
          rw [progress_exited went]
          rw [turn] at went
          simp only [serveAll, went]
          rfl

theorem serveAll_eq_some {turns : Nat} :
    i.serveAll turns s w = some (status, after) ↔ i.progress turns s w = .exited status after := by
  rw [serveAll_eq]
  cases i.progress turns s w with
  | ongoing => simp [World.Served.exit?]
  | exited => simp [World.Served.exit?]

end Invocation

end Plotline

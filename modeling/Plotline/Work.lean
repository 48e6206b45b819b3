/-
Module: Plotline.Work
Layer: Machine
Purpose: Work done in place on a state. It may fail with a report, and what it did before that stays done.
  An evaluation is work on the random generator of a running program.
Main exports: Work, Work.check, Work.runFrom, Work.within, Evaluation
-/
import Plotline.Diagnostic
import Plotline.Generator

namespace Plotline

/-- Work on a state that gives a result or fails with a report. -/
abbrev Work (σ : Type) := ExceptT Diagnostic (StateM σ)

namespace Work

variable {σ τ α : Type}

/-- Work that only looks for a result and changes nothing. -/
def check (result : Except Diagnostic α) : Work σ α :=
  ExceptT.mk (pure result)

/-- Does the work on a state: its result or report, and the state after it. -/
def runFrom (work : Work σ α) (s : σ) : Except Diagnostic α × σ :=
  work.run.run s

/-- Work on a part of a state, as work on the whole. -/
def within (part : σ → τ) (replace : σ → τ → σ) (work : Work τ α) : Work σ α :=
  ExceptT.mk fun s =>
    let (outcome, changed) := work.runFrom (part s)
    (outcome, replace s changed)

end Work

/-- A computation that may fail and may draw random numbers. Numbers drawn before a failure stay drawn. -/
abbrev Evaluation := Work Generator

end Plotline

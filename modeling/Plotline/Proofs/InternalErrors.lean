/-
Module: Plotline.Proofs.InternalErrors
Layer: Proofs
Purpose: The reports on faults of the machinery itself are never made. There are two places that could make
  one: a line that was cut into tokens without a label, and an array element without storage. Every line
  that is cut into tokens starts with its label, and the variables of a machine stay coherent whatever its
  caller does, so that every subscript that is accepted falls within what is stored.
Main exports: Listing.kind_of_mem_errors, Machine.coherent_isKept, Machine.incidents_external,
  Call.IsOrdinary, Machine.internal_error_unreachable
-/
import Plotline.Proofs.ListingLines
import Plotline.Proofs.Reports

namespace Plotline

/-! ### Reading -/

/-- The reports of a listing belong to reading. -/
theorem Listing.kind_of_mem_errors {source : String} {problem : Diagnostic}
    (mem : problem ∈ (load source).errors) : problem.kind = .lexical ∨ problem.kind = .parse := by
  rcases List.mem_append.1 mem with onLine | atEnd
  · unfold loadLines at onLine
    rw [(takeLines_eq {} (Text.lines source)).2.1] at onLine
    obtain ⟨step, _, reported⟩ := List.mem_filterMap.1 onLine
    exact (loadLine_error (loadLine_of_problem reported)).1
  · exact Or.inr (unclosed_isLabelled (labelsRegion_loadLines _) atEnd).1

theorem Diagnostic.external_of_kind {problem : Diagnostic}
    (reading : problem.kind = .lexical ∨ problem.kind = .parse) : problem.code ≠ .internalError := by
  intro internal
  unfold kind at reading
  rw [internal] at reading
  rcases reading with lexical | parse
  · cases lexical
  · cases parse

/-- A line that was cut into tokens starts with its label. -/
theorem Line.label_of_tokenize {text : String} {tokens : List Token}
    (cut : tokenize text = .ok tokens) : ∃ label rest, tokens = .label label :: rest := by
  rcases tokenize_eq_ok.1 cut with ⟨_, body, _, _, rfl⟩
  exact ⟨_, _, rfl⟩

namespace Machine

/-! ### The variables stay coherent -/

/-- A statement writes only where it has located a variable, and makes an array with as many numbers as its
    length says. -/
theorem coherent_step {m : Machine} (coherent : m.memory.IsCoherent) (s : Statement) :
    (m.step s).2.memory.IsCoherent := by
  rcases s with ⟨label, command⟩
  rcases hstep : m.step ⟨label, command⟩ with ⟨event, next⟩
  rcases step_cases hstep with ⟨action, generator, planned, carried⟩ | ⟨_, _, _, _, rfl⟩
  · have leads : command.LeadsTo m.program m.memory m.canvas action :=
      Command.plan_returns command m.generator action generator planned
    cases leads with
    | assign x located =>
        cases carried
        exact coherent.put located x
    | dim free =>
        cases carried
        exact coherent.addArray _ _
    | _ =>
        cases carried
        exact coherent
  · exact coherent

theorem coherent_enter {m : Machine} (coherent : m.memory.IsCoherent) (text : String) :
    (m.enter text).2.memory.IsCoherent := by
  unfold enter
  split
  · split
    · exact coherent
    · split
      · exact coherent
      · rename_i located
        exact coherent.put located _
  · exact coherent

theorem coherent_isKept : IsKept fun _ m => m.memory.IsCoherent where
  load _ _ := .empty
  step coherent _ _ := coherent_step coherent _
  stop coherent _ := coherent
  fail _ coherent := coherent
  quiet _ coherent := coherent
  enter text coherent := coherent_enter coherent text

/-! ### Reports -/

/-- A statement that fails on coherent variables does not blame the machinery. -/
theorem problem?_external {v : Visit} (coherent : v.machine.memory.IsCoherent) {problem : Diagnostic}
    (failed : v.problem? = some problem) : problem.code ≠ .internalError := by
  unfold Visit.problem? at failed
  split at failed
  · cases failed
  · rename_i cause planned
    cases failed
    obtain ⟨_, raised⟩ := Command.plan_raises v.statement.command v.machine.generator cause planned
    exact raised.external coherent

theorem code_recordedAfter (problem : Diagnostic) (ran : List Visit) :
    (problem.recordedAfter ran).code = problem.code := by
  unfold Diagnostic.recordedAfter
  split <;> rfl

end Machine

/-- A call that loads a source text, or in which the caller does not blame the machinery itself. -/
def Call.IsOrdinary : Call → Prop
  | .load listing => ∃ source, listing = Listing.load source
  | .fail problem => problem.code ≠ .internalError
  | .execute _ | .enter _ | .interrupt => True

namespace Machine

/-- No report that arises in an ordinary call blames the machinery. -/
theorem incidents_external {m : Machine} (coherent : m.memory.IsCoherent) (ran : List Visit) {c : Call}
    (ordinary : c.IsOrdinary) : ∀ problem ∈ m.incidents ran c, problem.code ≠ .internalError := by
  intro problem mem
  cases c with
  | load | enter => cases mem
  | execute budget =>
      obtain ⟨v, visited, failed⟩ := List.mem_filterMap.1 mem
      by_cases ready : m.IsReady
      · rw [ready.executeVisits_eq] at visited
        obtain ⟨before, rest, split⟩ := List.append_of_mem visited
        exact problem?_external (coherent_isKept.visited ran budget coherent ready split) failed
      · rw [executeVisits_of_not_ready ready] at visited
        cases visited
  | interrupt =>
      simp only [incidents] at mem
      split at mem
      · cases List.mem_singleton.1 mem
        rw [code_recordedAfter]
        simp
      · cases mem
  | fail other =>
      cases List.mem_singleton.1 mem
      rw [code_recordedAfter]
      exact ordinary

/-- Neither what a call hands out nor what it leaves pending blames the machinery. -/
theorem call_external {ran : List Visit} {m : Machine} (sound : IsSound ran m)
    (coherent : m.memory.IsCoherent) (pending : ∀ problem ∈ m.pending, problem.code ≠ .internalError)
    {c : Call} (ordinary : c.IsOrdinary) :
    ∀ problem ∈ (m.call c).1.problems ++ (m.call c).2.pending, problem.code ≠ .internalError := by
  intro problem mem
  by_cases loads : ∃ listing, c = .load listing
  · obtain ⟨_, rfl⟩ := loads
    obtain ⟨source, rfl⟩ := ordinary
    exact Diagnostic.external_of_kind (Listing.kind_of_mem_errors mem)
  · have notLoad : ∀ listing, c ≠ .load listing := fun listing same => loads ⟨listing, same⟩
    rw [sound.call_accounts c notLoad] at mem
    rcases List.mem_append.1 mem with earlier | arisen
    · exact pending problem earlier
    · exact incidents_external coherent ran ordinary problem arisen

/-- The same for any calls. -/
theorem calls_external (calls : List Call) (ordinary : ∀ c ∈ calls, c.IsOrdinary) {ran : List Visit}
    {m : Machine} (sound : IsSound ran m) (coherent : m.memory.IsCoherent)
    (pending : ∀ problem ∈ m.pending, problem.code ≠ .internalError) :
    (∀ reply ∈ m.replies calls, ∀ problem ∈ reply.problems, problem.code ≠ .internalError) ∧
    ∀ problem ∈ (m.after calls).pending, problem.code ≠ .internalError := by
  induction calls generalizing ran m with
  | nil => exact ⟨by simp [replies], pending⟩
  | cons c rest ih =>
      obtain ⟨first, others⟩ := List.forall_mem_cons.1 ordinary
      have external := call_external sound coherent pending first
      have handedOut : ∀ problem ∈ (m.call c).1.problems, problem.code ≠ .internalError :=
        fun problem mem => external problem (List.mem_append_left _ mem)
      have left : ∀ problem ∈ (m.call c).2.pending, problem.code ≠ .internalError :=
        fun problem mem => external problem (List.mem_append_right _ mem)
      have next : (m.call c).2.memory.IsCoherent := coherent_isKept.calls ran [c] coherent
      obtain ⟨replies, last⟩ := ih others (sound.calls [c]) next left
      refine ⟨?_, last⟩
      intro reply mem
      rcases List.mem_cons.1 mem with rfl | later
      · exact handedOut
      · exact replies reply later

/-- No report blames the machinery itself. Take any calls on a new machine, where listings are read from
    source texts and the caller makes no such report. Then no such report is among those of a listing, in a
    reply, or pending. A line that is cut into tokens starts with a label; every array has as many numbers
    stored as its length says; and a number is stored at every offset that a subscript is found to have. -/
theorem internal_error_unreachable (generator : Generator) (calls : List Call)
    (ordinary : ∀ c ∈ calls, c.IsOrdinary) :
    let m := (new generator).after calls
    (∀ source, ∀ problem ∈ (Listing.load source).errors, problem.code ≠ .internalError) ∧
    (∀ problems, .event (.errors problems) ∈ (new generator).replies calls →
      ∀ problem ∈ problems, problem.code ≠ .internalError) ∧
    (∀ problem ∈ m.pending, problem.code ≠ .internalError) ∧
    (∀ text tokens, Line.tokenize text = .ok tokens → ∃ label rest, tokens = .label label :: rest) ∧
    (∀ (name : String) (length : Nat), m.memory.lengths[name]? = some length →
      ∃ values : Array Float, m.memory.cells[name]? = some values ∧ values.size = length) ∧
    ∀ name subscript offset, m.memory.offset name subscript = .ok offset →
      ∃ x, m.memory.cell name offset = .ok x := by
  intro m
  obtain ⟨replies, pending⟩ := calls_external calls ordinary (IsSound.new generator) .empty
    (by simp [new])
  have coherent : m.memory.IsCoherent := coherent_isKept.calls [] calls .empty
  refine ⟨?_, ?_, pending, ?_, coherent, ?_⟩
  · intro source problem mem
    exact Diagnostic.external_of_kind (Listing.kind_of_mem_errors mem)
  · intro problems mem
    exact replies _ mem
  · intro text tokens
    exact Line.label_of_tokenize
  · intro name subscript offset
    exact coherent.cell_of_offset

/-- A caller who loads a program that subscripts past the end of an array, runs it, fails to keep a drawing,
    and loads another program that makes an array of no elements under the same name. -/
def subscriptCalls : List Call :=
  [.load (Listing.load "10 DIM V 2\n20 LET V[3] = 1\n"), .execute 9, .fail { code := .cantCreateFile },
    .execute 9, .load (Listing.load "10 DIM V 0\n20 LET V[1] = 1\n30 OOPS\n"), .execute 9, .execute 9]

/-- Whatever the replies to these calls are, they do not blame the machinery. -/
theorem internal_error_unreachable_subscript :
    (∀ c ∈ subscriptCalls, c.IsOrdinary) ∧
    ∀ problems, .event (.errors problems) ∈ (new (.constant 0)).replies subscriptCalls →
      ∀ problem ∈ problems, problem.code ≠ .internalError := by
  have ordinary : ∀ c ∈ subscriptCalls, c.IsOrdinary := by
    intro c mem
    simp only [subscriptCalls, List.mem_cons, List.not_mem_nil, or_false] at mem
    rcases mem with rfl | rfl | rfl | rfl | rfl | rfl | rfl
    · exact ⟨_, rfl⟩
    · trivial
    · simp [Call.IsOrdinary]
    · trivial
    · exact ⟨_, rfl⟩
    · trivial
    · trivial
  exact ⟨ordinary, (internal_error_unreachable (.constant 0) subscriptCalls ordinary).2.1⟩

end Machine

end Plotline

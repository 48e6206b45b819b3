/-
Module: Plotline.Proofs.ListingRegion
Layer: Proofs
Purpose: The drawing region of a listing. `Region.scan?` goes through statements from the front and gives up at
  one that is out of place; on the statements of a listing it never does, and it ends in the region that the
  listing carries along, whatever lines could not be read on the way (`Listing.regions_kept`). So the report on
  a drawing that is still open is made exactly when the scan ends inside of one.
  The label of that report is not taken from a statement but remembered when a line changes the region. It is
  the label of the last start in a line that was met outside of a drawing, and that is the last start of all
  unless a line finishes a drawing and starts another one (`Listing.unclosed_drawing_named`).
Main exports: Region.after?, Region.scan?, Region.Path.scan?_eq, Listing.addLine, Diagnostic.isUnclosed,
  Listing.regions_kept, Statement.lastStart?, Listing.reopens, Listing.unclosed_drawing_named
-/
import Plotline.Proofs.ListingLines

namespace Plotline

/-! ### Scanning statements -/

namespace Region

/-- The region after a command, if the command is in place: a drawing is started outside of one, and finished
    or added to inside of one. -/
def after? : Region → Command → Option Region
  | .closed, .drawStart .. => some .opened
  | .opened, .drawStart .. => none
  | .opened, .drawFinish => some .closed
  | .closed, .drawFinish => none
  | .opened, .line .. | .opened, .plot .. | .opened, .rectangle .. => some .opened
  | .closed, .line .. | .closed, .plot .. | .closed, .rectangle .. => none
  | r, _ => some r

/-- The region after some statements, if each of them is in place. -/
def scan? (r : Region) : List Statement → Option Region
  | [] => some r
  | s :: rest =>
      match r.after? s.command with
      | some next => next.scan? rest
      | none => none

theorem after?_of_moves {r r' : Region} {c : Command} (h : c.Moves r r') : r.after? c = some r' := by
  cases h with
  | start | finish => rfl
  | figure isFigure => cases c <;> simp [Command.isFigure] at isFigure <;> rfl
  | other r notDrawing =>
      cases c <;> simp [Command.isDrawing, Command.isFigure] at notDrawing <;> cases r <;> rfl

/-- The scan of statements that are allowed one after the other finds none out of place. -/
theorem Path.scan?_eq {r last : Region} {statements : List Statement} (h : Path r statements last) :
    r.scan? statements = some last := by
  induction h with
  | nil r => rfl
  | cons head _ ih =>
      rw [scan?, after?_of_moves head]
      exact ih

end Region

/-! ### Statements that start a drawing -/

namespace Statement

/-- The statement starts a drawing. -/
def isStart (s : Statement) : Bool :=
  match s.command with
  | .drawStart .. => true
  | _ => false

/-- The last statement that starts a drawing. -/
def lastStart? (statements : List Statement) : Option Statement :=
  (statements.filter isStart).getLast?

theorem lastStart?_append (first second : List Statement) :
    lastStart? (first ++ second) = (lastStart? second).or (lastStart? first) := by
  rw [lastStart?, List.filter_append, List.getLast?_append]
  rfl

/-- A walk into a drawing starts one. -/
theorem exists_lastStart {r last : Region} {statements : List Statement}
    (path : Region.Path r statements last) (outside : r = .closed) (inside : last = .opened) :
    ∃ s ∈ statements, lastStart? statements = some s := by
  have starts : ∃ s ∈ statements, isStart s = true := by
    induction path with
    | nil r =>
        rw [outside] at inside
        cases inside
    | @cons r r' last s rest head tail ih =>
        subst outside
        cases command : s.command with
        | drawStart => exact ⟨s, List.mem_cons_self, by rw [isStart, command]⟩
        | _ =>
            have stays : r' = .closed := by
              rw [command] at head
              exact (head.regionAfter_eq).symm
            rcases ih stays inside with ⟨other, mem, isStart⟩
            exact ⟨other, List.mem_cons_of_mem _ mem, isStart⟩
  rcases starts with ⟨s, mem, start⟩
  have nonempty : statements.filter isStart ≠ [] := List.ne_nil_of_mem (List.mem_filter.2 ⟨mem, start⟩)
  have found := List.getLast_mem nonempty
  exact ⟨_, (List.mem_filter.1 found).1, List.getLast?_eq_some_getLast nonempty⟩

end Statement

/-! ### The report on a drawing that is still open -/

/-- The report is the one on a drawing that is still open. -/
def Diagnostic.isUnclosed (problem : Diagnostic) : Bool :=
  problem.code == .syntaxError && problem.detail == "DRAW START WITHOUT DRAW FINISH"

/-- The detail of a complaint starts with another letter than that report, or is empty. -/
theorem Complaint.detail_head (c : Complaint) : c.detail.toList.head? ≠ some 'D' := by
  have opens : ∀ {front text : String} {letter : Char}, front.toList.head? = some letter → letter ≠ 'D' →
      (front ++ text).toList.head? ≠ some 'D' := by
    intro front text letter first other
    rw [String.toList_append, List.head?_append, first]
    simpa using other
  cases c with
  | expectedStatement => exact opens rfl (by decide)
  | expectedExpression => exact opens rfl (by decide)
  | malformedNumber => exact opens rfl (by decide)
  | _ => decide +kernel

theorem Complaint.detail_ne_unclosed (c : Complaint) : c.detail ≠ "DRAW START WITHOUT DRAW FINISH" := by
  intro same
  apply c.detail_head
  rw [same]
  rfl

namespace Listing

/-- The report on a line is never the one on a drawing that is still open. -/
theorem loadLine_error_isUnclosed {l : Listing} {text : String} {problem : Diagnostic}
    (h : l.loadLine text = .error problem) : problem.isUnclosed = false := by
  rcases loadLine_error_cases h with ⟨lexical, _⟩ | ⟨complaint, rfl⟩
  · have code : problem.code ≠ .syntaxError := by
      intro same
      rw [Diagnostic.kind, same] at lexical
      cases lexical
    simp [Diagnostic.isUnclosed, code]
  · have detail := complaint.detail_ne_unclosed
    simp [Diagnostic.isUnclosed, Diagnostic.inLabel, Complaint.diagnostic, detail]

theorem isUnclosed_of_mem_errors {lines : List String} {problem : Diagnostic}
    (mem : problem ∈ (loadLines lines).errors) : problem.isUnclosed = false := by
  have errors : (loadLines lines).errors = [] ++ (steps {} lines).filterMap problem? :=
    (takeLines_eq {} lines).2.1
  rw [errors, List.nil_append] at mem
  rcases List.mem_filterMap.1 mem with ⟨step, _, reported⟩
  exact loadLine_error_isUnclosed (loadLine_of_problem reported)

/-- Ending a listing adds the report exactly if a drawing is still open. -/
theorem unclosed?_cases (l : Listing) :
    (l.region = .opened ∧ ∃ problem, l.unclosed? = some problem ∧ problem.isUnclosed = true ∧
      problem.label = l.regionLabel) ∨
    (l.region = .closed ∧ l.unclosed? = none) := by
  cases region : l.region with
  | opened =>
      refine Or.inl ⟨rfl, _, by rw [unclosed?, region], ?_, rfl⟩
      simp [Diagnostic.isUnclosed]
  | closed => exact Or.inr ⟨rfl, by rw [unclosed?, region]⟩

/-! ### The region of a listing -/

/-- Adds one source line if it can be read, and leaves the listing alone otherwise. -/
def addLine (l : Listing) (text : String) : Listing :=
  match l.loadLine text with
  | .ok next => next
  | .error _ => l

theorem IsWalk.addLine {l : Listing} (walk : l.IsWalk) (text : String) : (l.addLine text).IsWalk := by
  have taken := walk.takeLine text
  unfold Listing.takeLine at taken
  unfold Listing.addLine
  cases loaded : l.loadLine text with
  | ok next =>
      rw [loaded] at taken
      exact taken
  | error problem => exact walk

theorem IsWalk.addLines {l : Listing} (walk : l.IsWalk) (lines : List String) :
    (lines.foldl Listing.addLine l).IsWalk := by
  induction lines generalizing l with
  | nil => exact walk
  | cons text rest ih => exact ih (walk.addLine text)

/-- The drawing region of a listing is what its statements say. Whatever lines are added to an empty listing,
    the scan of its statements meets no start inside of a drawing, and no finish and no figure outside of one,
    and it ends in the region of the listing. A source text is reported as leaving a drawing open exactly if
    the scan of its statements ends inside of one: this is the last report and the only one of its kind, and
    otherwise there is none beyond those on single lines. -/
theorem regions_kept :
    (∀ lines : List String,
      Region.scan? .closed (lines.foldl addLine {}).statements = some (lines.foldl addLine {}).region) ∧
    ∀ source : String,
      Region.scan? .closed (load source).statements = some (load source).region ∧
      ((∃ problem ∈ (load source).errors, problem.isUnclosed = true) ↔
        Region.scan? .closed (load source).statements = some .opened) ∧
      (Region.scan? .closed (load source).statements = some .opened →
        ∃ problem, problem.isUnclosed = true ∧
          (load source).errors = (loadLines (Text.lines source)).errors ++ [problem]) ∧
      (Region.scan? .closed (load source).statements ≠ some .opened →
        (load source).errors = (loadLines (Text.lines source)).errors) := by
  have start : ({} : Listing).IsWalk := .nil .closed
  refine ⟨fun lines => (start.addLines lines).scan?_eq, fun source => ?_⟩
  have scanned := (load_path source).scan?_eq
  have others : ∀ problem ∈ (loadLines (Text.lines source)).errors, problem.isUnclosed = false :=
    fun problem => isUnclosed_of_mem_errors
  have region : (load source).region = (loadLines (Text.lines source)).region := rfl
  have errors : (load source).errors = (loadLines (Text.lines source)).errors ++
      (loadLines (Text.lines source)).unclosed?.toList := rfl
  rw [scanned, errors, region]
  rcases unclosed?_cases (loadLines (Text.lines source)) with
    ⟨opened, problem, reported, isReport, _⟩ | ⟨closed, none⟩
  · rw [opened, reported]
    refine ⟨rfl, iff_of_true ⟨problem, by simp, isReport⟩ rfl, fun _ => ⟨problem, isReport, rfl⟩, ?_⟩
    exact fun notOpened => absurd rfl notOpened
  · rw [closed, none]
    refine ⟨rfl, iff_of_false ?_ (by simp), fun opened => ?_, fun _ => List.append_nil _⟩
    · rintro ⟨problem, mem, isReport⟩
      rw [Option.toList_none, List.append_nil] at mem
      rw [others problem mem] at isReport
      cases isReport
    · cases opened

/-! ### Whose drawing is still open -/

open Statement (isStart lastStart? lastStart?_append exists_lastStart)

/-- The line of a step is met outside of a drawing. -/
def isOutside (step : Listing × String) : Bool :=
  step.1.region == .closed

/-- The line of a step is met inside of a drawing and starts another one, so it finishes the first. -/
def reopens (step : Listing × String) : Bool :=
  !isOutside step && (gained step).any isStart

/-- The statements of the lines that are met outside of a drawing. -/
def outsideStatements (steps : List (Listing × String)) : List Statement :=
  (steps.filter isOutside).flatMap gained

theorem outsideStatements_append (before after : List (Listing × String)) :
    outsideStatements (before ++ after) = outsideStatements before ++ outsideStatements after := by
  simp [outsideStatements]

/-- If a drawing is open after some steps, the label kept for it is that of the last start in a line that was
    met outside of a drawing. -/
def LabelsStart (done : List (Listing × String)) (l : Listing) : Prop :=
  l.region = .opened →
    ∃ s, lastStart? (outsideStatements done) = some s ∧ l.regionLabel = some s.label

/-- What a line does to the region and its label: nothing, or what the walk through its statements says. -/
theorem takeLine_region_cases (l : Listing) (text : String) :
    (gained (l, text) = [] ∧ (l.takeLine text).region = l.region ∧
      (l.takeLine text).regionLabel = l.regionLabel) ∨
    Region.Path l.region (gained (l, text)) (l.takeLine text).region ∧
      (l.takeLine text).regionLabel =
        if (l.takeLine text).region = l.region then l.regionLabel
        else some (String.ofList (Line.firstField text)) := by
  have sound := Reading.ofLine_sound l.region text
  unfold takeLine loadLine gained
  cases reading : Reading.ofLine l.region text with
  | skipped | illegible | rejected => exact Or.inl ⟨rfl, rfl, rfl⟩
  | accepted line statements last =>
      rw [reading] at sound
      rcases sound with ⟨cut, read⟩
      refine Or.inr ⟨Statement.parseItems_path read, ?_⟩
      rw [← (Line.ofText_ok cut).1]

/-- One more line keeps the label, or else it leads into a drawing and its own label is kept from then on. -/
theorem LabelsStart.takeLine {done : List (Listing × String)} {l : Listing} (h : LabelsStart done l)
    (text : String) : LabelsStart (done ++ [(l, text)]) (l.takeLine text) := by
  intro opened
  rw [outsideStatements_append, lastStart?_append]
  rcases takeLine_region_cases l text with ⟨none, same, sameLabel⟩ | ⟨path, label⟩
  · have nothing : outsideStatements [(l, text)] = [] := by
      cases outside : isOutside (l, text) <;> simp [outsideStatements, outside, none]
    rw [sameLabel, nothing]
    exact h (same.symm.trans opened)
  · cases before : l.region with
    | opened =>
        -- The line is met inside of the drawing, and the label stays.
        have inside : isOutside (l, text) = false := by simp [isOutside, before]
        have nothing : outsideStatements [(l, text)] = [] := by simp [outsideStatements, inside]
        rw [opened, before, if_pos rfl] at label
        rw [label, nothing]
        exact h before
    | closed =>
        -- The line leads into a drawing, so it has a start, under its own label.
        have outside : isOutside (l, text) = true := by simp [isOutside, before]
        have all : outsideStatements [(l, text)] = gained (l, text) := by
          simp [outsideStatements, outside]
        rcases exists_lastStart path before opened with ⟨s, mem, last⟩
        have named := gained_labels (l, text) s mem
        rw [opened, before, if_neg (by simp)] at label
        rw [all, last, label, ← named]
        exact ⟨s, rfl, rfl⟩

theorem LabelsStart.takeLines {done : List (Listing × String)} {l : Listing} (h : LabelsStart done l)
    (lines : List String) : LabelsStart (done ++ l.steps lines) (lines.foldl Listing.takeLine l) := by
  induction lines generalizing done l with
  | nil => simpa [steps] using h
  | cons text rest ih =>
      have more := ih (h.takeLine text)
      rw [List.append_assoc, List.singleton_append] at more
      exact more

/-- Where no line reopens a drawing, every start stands in a line that is met outside of one. -/
theorem starts_outside {steps : List (Listing × String)} (h : ∀ step ∈ steps, reopens step = false) :
    (steps.flatMap gained).filter isStart = (outsideStatements steps).filter isStart := by
  induction steps with
  | nil => rfl
  | cons step rest ih =>
      rcases List.forall_mem_cons.1 h with ⟨first, others⟩
      rw [← List.singleton_append, outsideStatements_append, List.flatMap_append, List.filter_append,
        List.filter_append, ih others]
      congr 1
      cases outside : isOutside step with
      | true => simp [outsideStatements, outside]
      | false =>
          rw [reopens, outside, Bool.not_false, Bool.true_and, List.any_eq_false] at first
          simpa [outsideStatements, outside] using first

/-- A line that cannot be read has no statements. -/
theorem gained_of_unreadable {step : Listing × String} (h : isReadable step = false) : gained step = [] := by
  unfold gained
  cases reading : Reading.ofLine step.1.region step.2 with
  | skipped | illegible | rejected => rfl
  | accepted line statements last =>
      rw [isReadable, loadLine, reading] at h
      cases h

/-- The statements of a source text are those of its lines. -/
theorem load_statements (source : String) :
    (load source).statements = (steps {} (Text.lines source)).flatMap gained := by
  have readable : ∀ steps : List (Listing × String),
      (steps.filter isReadable).flatMap gained = steps.flatMap gained := by
    intro steps
    induction steps with
    | nil => rfl
    | cons step rest ih =>
        cases read : isReadable step with
        | true => rw [List.filter_cons_of_pos read, List.flatMap_cons, List.flatMap_cons, ih]
        | false =>
            rw [List.filter_cons_of_neg (by simp [read]), List.flatMap_cons, gained_of_unreadable read, ih,
              List.nil_append]
  rw [← readable]
  exact (takeLines_eq {} (Text.lines source)).1

/-- A drawing that is still open is reported last, and under the label of the last start in a line that is met
    outside of a drawing. Unless a line finishes a drawing and starts another one, that is the last start of
    all, and so the one whose drawing is open. -/
theorem unclosed_drawing_named (source : String) (opened : (load source).region = .opened) :
    ∃ problem s, (load source).errors.getLast? = some problem ∧ problem.isUnclosed = true ∧
      problem.label = some s.label ∧
      lastStart? (outsideStatements (steps {} (Text.lines source))) = some s ∧
      ((∀ step ∈ steps {} (Text.lines source), reopens step = false) →
        lastStart? (load source).statements = some s) := by
  have start : LabelsStart [] {} := by
    intro opened
    cases opened
  rcases start.takeLines (Text.lines source) opened with ⟨s, last, label⟩
  have errors : (load source).errors = (loadLines (Text.lines source)).errors ++
      (loadLines (Text.lines source)).unclosed?.toList := rfl
  rcases unclosed?_cases (loadLines (Text.lines source)) with
    ⟨_, problem, reported, isReport, named⟩ | ⟨closed, _⟩
  · refine ⟨problem, s, ?_, isReport, named.trans label, last, fun calm => ?_⟩
    · rw [errors, reported]
      simp
    · rw [lastStart?, load_statements, starts_outside calm]
      exact last
  · exact absurd (closed.symm.trans opened) (by simp)

/-- A drawing that is never finished. -/
def unfinished : String :=
  "10 DRAW START 9, 9\n20 PLOT 1, 2, 3, RED\n"

theorem unclosed_drawing_named_unfinished :
    (load unfinished).region = .opened ∧
    (∀ step ∈ steps {} (Text.lines unfinished), reopens step = false) ∧
    ∃ problem s, (load unfinished).errors.getLast? = some problem ∧ problem.label = some s.label ∧
      lastStart? (load unfinished).statements = some s := by
  have opened : (load unfinished).region = .opened := by decide +kernel
  have calm : ∀ step ∈ steps {} (Text.lines unfinished), reopens step = false := by
    have none : ((steps {} (Text.lines unfinished)).any reopens) = false := by decide +kernel
    simpa using none
  rcases unclosed_drawing_named unfinished opened with ⟨problem, s, last, _, named, _, lastOfAll⟩
  exact ⟨opened, calm, problem, s, last, named, lastOfAll calm⟩

/-- A drawing that is finished in the line that starts the next one. -/
def reopened : String :=
  "10 DRAW START 9, 9\n20 PRINT 1 DRAW FINISH DRAW START 8, 8\n"

/-- The drawing that is left open was started in the second line, and the report names the first. -/
theorem reopened_drawing_misnamed :
    (load reopened).region = .opened ∧
    (load reopened).errors.map (fun problem => (problem.isUnclosed, problem.label)) = [(true, some "10")] ∧
    (lastStart? (load reopened).statements).map Statement.label = some "20" := by
  decide +kernel

end Listing

end Plotline

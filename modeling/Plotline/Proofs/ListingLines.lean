/-
Module: Plotline.Proofs.ListingLines
Layer: Proofs
Purpose: A line that cannot be read affects nothing but itself. `Listing.steps` pairs each source line with
  the listing it is added to; what each step adds to the statements and to the reports adds up to the whole
  listing, and the reports of earlier lines have no part in how a line is read. So the lines that cannot be
  read may as well be deleted.
Main exports: Listing.steps, Listing.readableFrom, Text.unlines, Text.lines_unlines,
  Listing.bad_lines_isolated
-/
import Plotline.Proofs.LineReports

namespace Plotline

/-! ### Lines and the text they make up -/

namespace Text

/-- A source text with the given lines. Each one is ended in the long way, so that a carriage return at its
    end is not lost. -/
def unlines (lines : List String) : String :=
  String.ofList (lines.flatMap fun line => line.toList ++ ['\r', '\n'])

theorem newline_not_mem_splitLines (cs : List Char) : ∀ line ∈ splitLines cs, '\n' ∉ line := by
  fun_induction splitLines cs with
  | case1 => simp
  | case2 rest ih => simpa using ih
  | case3 rest ih => simpa using ih
  | case4 c rest notNewline notReturn none ih =>
      simpa using fun same => notNewline same.symm
  | case5 c rest notNewline notReturn line more split ih =>
      rw [split] at ih
      rcases List.forall_mem_cons.1 ih with ⟨first, others⟩
      refine List.forall_mem_cons.2 ⟨?_, others⟩
      intro mem
      rcases List.mem_cons.1 mem with same | mem
      · exact notNewline same.symm
      · exact first mem

/-- The lines of a source text hold no line feed. -/
theorem newline_not_mem_lines {source line : String} (h : line ∈ lines source) : '\n' ∉ line.toList := by
  rcases List.mem_map.1 h with ⟨cs, mem, rfl⟩
  rw [String.toList_ofList]
  exact newline_not_mem_splitLines _ cs mem

theorem splitLines_append {line : List Char} (h : '\n' ∉ line) (rest : List Char) :
    splitLines (line ++ '\r' :: '\n' :: rest) = line :: splitLines rest := by
  induction line with
  | nil => rw [List.nil_append, splitLines]
  | cons c line ih =>
      have first := List.ne_of_not_mem_cons h
      have others := List.not_mem_of_not_mem_cons h
      -- The next character is no line feed, so a carriage return in front belongs to the line.
      have noEnd : ∀ more, c = '\r' → line ++ '\r' :: '\n' :: rest = '\n' :: more → False := by
        intro more _ starts
        cases line with
        | nil => cases starts
        | cons d line =>
            cases starts
            exact others List.mem_cons_self
      rw [List.cons_append, splitLines.eq_4 _ _ (fun same => first same.symm) noEnd, ih others]

/-- Lines without line feeds are the lines of the text they make up. -/
theorem lines_unlines {lines : List String} (h : ∀ line ∈ lines, '\n' ∉ line.toList) :
    Text.lines (unlines lines) = lines := by
  have split : splitLines (lines.flatMap fun line => line.toList ++ ['\r', '\n']) =
      lines.map String.toList := by
    induction lines with
    | nil => rfl
    | cons line rest ih =>
        rcases List.forall_mem_cons.1 h with ⟨first, others⟩
        rw [List.flatMap_cons, List.append_assoc, List.cons_append, List.cons_append, List.nil_append,
          splitLines_append first, ih others, List.map_cons]
  rw [Text.lines, unlines, String.toList_ofList, split, List.map_map]
  simp

end Text

namespace Listing

/-! ### One line -/

/-- The line of a step can be read in the listing before it. -/
def isReadable (step : Listing × String) : Bool :=
  (step.1.loadLine step.2).isOk

/-- The report on the line of a step, if it cannot be read. -/
def problem? (step : Listing × String) : Option Diagnostic :=
  match step.1.loadLine step.2 with
  | .ok _ => none
  | .error problem => some problem

theorem loadLine_of_problem {step : Listing × String} {problem : Diagnostic}
    (h : problem? step = some problem) : step.1.loadLine step.2 = .error problem := by
  unfold problem? at h
  split at h
  · cases h
  · rename_i failed
    cases h
    exact failed

/-- The statements of the line of a step. -/
def gained (step : Listing × String) : List Statement :=
  match Reading.ofLine step.1.region step.2 with
  | .accepted _ statements _ => statements
  | _ => []

/-- An open drawing has been opened by a line that has a label. -/
def LabelsRegion (l : Listing) : Prop :=
  l.region = .opened → l.regionLabel.isSome = true

/-- A line that is read adds its statements and reports nothing; an open drawing stays labelled. -/
theorem loadLine_ok {l next : Listing} {text : String} (h : l.loadLine text = .ok next) :
    next.statements = l.statements ++ gained (l, text) ∧ next.errors = l.errors ∧
      (l.LabelsRegion → next.LabelsRegion) := by
  unfold loadLine at h
  unfold gained
  cases reading : Reading.ofLine l.region text with
  | skipped =>
      rw [reading] at h
      cases h
      exact ⟨by simp, rfl, id⟩
  | illegible | rejected =>
      rw [reading] at h
      cases h
  | accepted line statements last =>
      rw [reading] at h
      cases h
      refine ⟨rfl, rfl, fun labelled opened => ?_⟩
      dsimp only at opened ⊢
      split
      · rename_i same
        exact labelled (same.symm.trans opened)
      · rfl

/-- The statements of a line carry its first field. -/
theorem gained_labels (step : Listing × String) :
    ∀ s ∈ gained step, s.label = String.ofList (Line.firstField step.2) := by
  have sound := Reading.ofLine_sound step.1.region step.2
  unfold gained
  cases reading : Reading.ofLine step.1.region step.2 with
  | skipped | illegible | rejected => simp
  | accepted line statements last =>
      rw [reading] at sound
      rcases sound with ⟨cut, read⟩
      rcases Reading.tokens_of_line cut with ⟨body, tokens, noLabel⟩
      rw [tokens] at read
      rw [← (Line.ofText_ok cut).1]
      exact (Statement.parseAll_labels noLabel).2 statements last read

/-- A line that has statements was read as these. -/
theorem gained_accepted {step : Listing × String} {s : Statement} (mem : s ∈ gained step) :
    ∃ line last, Reading.ofLine step.1.region step.2 = .accepted line (gained step) last := by
  unfold gained at mem ⊢
  cases reading : Reading.ofLine step.1.region step.2 with
  | skipped | illegible | rejected =>
      rw [reading] at mem
      cases mem
  | accepted line statements last => exact ⟨line, last, rfl⟩

/-- A line that has statements was cut into tokens, the first of which say these statements. -/
theorem gained_read {step : Listing × String} {s : Statement} (mem : s ∈ gained step) :
    ∃ us rest last, Line.tokenize step.2 = .ok (us ++ rest) ∧
      Grammar.Items none step.1.region us (gained step) last := by
  have sound := Reading.ofLine_sound step.1.region step.2
  unfold gained at mem ⊢
  cases reading : Reading.ofLine step.1.region step.2 with
  | skipped | illegible | rejected =>
      rw [reading] at mem
      cases mem
  | accepted line statements last =>
      rw [reading] at sound
      rcases sound with ⟨cut, read⟩
      rcases Grammar.items_of_parse (Nat.le_refl _) read with ⟨us, rest, split, _, items⟩
      exact ⟨us, rest, last, split ▸ (Line.ofText_ok cut).2, items⟩

/-- Earlier reports have no part in how a line is read. -/
theorem loadLine_errors (l : Listing) (errors : List Diagnostic) (text : String) :
    ({ l with errors := errors } : Listing).loadLine text =
      (l.loadLine text).map fun next => { next with errors := errors } := by
  unfold loadLine
  dsimp only
  cases Reading.ofLine l.region text <;> rfl

/-! ### All lines -/

/-- The source lines, each with the listing it is added to. -/
def steps (l : Listing) : List String → List (Listing × String)
  | [] => []
  | text :: rest => (l, text) :: steps (l.takeLine text) rest

theorem mem_of_mem_steps {l : Listing} {lines : List String} {step : Listing × String}
    (mem : step ∈ l.steps lines) : step.2 ∈ lines := by
  induction lines generalizing l with
  | nil => cases mem
  | cons text rest ih =>
      rcases List.mem_cons.1 mem with rfl | later
      · exact List.mem_cons_self
      · exact List.mem_cons_of_mem text (ih later)

/-- The lines that are left when those that cannot be read are deleted. -/
def readableFrom (l : Listing) (lines : List String) : List String :=
  ((l.steps lines).filter isReadable).map Prod.snd

/-- A line is read and taken as it was read, or else it is reported. -/
theorem step_cases (l : Listing) (text : String) :
    (∃ next, l.loadLine text = .ok next ∧ l.takeLine text = next ∧ isReadable (l, text) = true ∧
      problem? (l, text) = none) ∨
    ∃ problem, l.takeLine text = { l with errors := l.errors ++ [problem] } ∧
      isReadable (l, text) = false ∧ problem? (l, text) = some problem := by
  unfold takeLine isReadable problem?
  cases l.loadLine text with
  | ok next => exact Or.inl ⟨next, rfl, rfl, rfl, rfl⟩
  | error problem => exact Or.inr ⟨problem, rfl, rfl, rfl⟩

/-- What the lines add to a listing, one step after the other. -/
theorem takeLines_eq (l : Listing) (lines : List String) :
    (lines.foldl takeLine l).statements =
        l.statements ++ ((l.steps lines).filter isReadable).flatMap gained ∧
      (lines.foldl takeLine l).errors = l.errors ++ (l.steps lines).filterMap problem? ∧
      (l.LabelsRegion → (lines.foldl takeLine l).LabelsRegion) := by
  induction lines generalizing l with
  | nil => exact ⟨by simp [steps], by simp [steps], id⟩
  | cons text rest ih =>
      rcases ih (l.takeLine text) with ⟨statements, errors, labelled⟩
      rw [List.foldl_cons, statements, errors, steps]
      rcases step_cases l text with
        ⟨next, loaded, taken, readable, none⟩ | ⟨problem, taken, unreadable, some⟩
      · rcases loadLine_ok loaded with ⟨added, same, kept⟩
        rw [taken] at labelled ⊢
        refine ⟨?_, ?_, labelled ∘ kept⟩
        · rw [List.filter_cons_of_pos readable, List.flatMap_cons, added, List.append_assoc]
        · rw [List.filterMap_cons_none none, same]
      · rw [taken] at labelled ⊢
        refine ⟨?_, ?_, labelled⟩
        · rw [List.filter_cons_of_neg (by simp [unreadable])]
        · rw [List.filterMap_cons_some some, List.append_assoc, List.singleton_append]

/-- Deleting the lines that cannot be read changes nothing but the reports. -/
theorem takeLines_readable (l : Listing) (errors : List Diagnostic) (lines : List String) :
    (l.readableFrom lines).foldl takeLine { l with errors := errors } =
      { lines.foldl takeLine l with errors := errors } := by
  induction lines generalizing l with
  | nil => rfl
  | cons text rest ih =>
      rw [List.foldl_cons, ← ih (l.takeLine text), readableFrom, steps]
      rcases step_cases l text with
        ⟨next, loaded, taken, readable, _⟩ | ⟨problem, taken, unreadable, _⟩
      · have again : ({ l with errors := errors } : Listing).takeLine text =
            { next with errors := errors } := by
          rw [takeLine, loadLine_errors, loaded]
          rfl
        rw [taken, List.filter_cons_of_pos readable, List.map_cons, List.foldl_cons, again]
        rfl
      · rw [taken, List.filter_cons_of_neg (by simp [unreadable])]
        rfl

/-! ### The whole listing -/

theorem labelsRegion_loadLines (lines : List String) : (loadLines lines).LabelsRegion :=
  (takeLines_eq {} lines).2.2 (fun opened => by cases opened)

theorem loadLines_readable (lines : List String) :
    loadLines (readableFrom {} lines) = { loadLines lines with errors := [] } :=
  takeLines_readable {} [] lines

theorem readable_subset (lines : List String) : readableFrom {} lines ⊆ lines := by
  intro line mem
  rcases List.mem_map.1 mem with ⟨step, kept, rfl⟩
  exact mem_of_mem_steps (List.mem_of_mem_filter kept)

/-- The report on a drawing that is still open belongs to reading and has a label. -/
theorem unclosed_isLabelled {l : Listing} (labelled : l.LabelsRegion) {problem : Diagnostic}
    (h : problem ∈ l.unclosed?.toList) : problem.kind = .parse ∧ problem.label.isSome = true := by
  unfold unclosed? at h
  cases region : l.region with
  | closed =>
      rw [region] at h
      cases h
  | opened =>
      rw [region] at h
      rcases List.mem_singleton.1 h with rfl
      exact ⟨rfl, labelled region⟩

/-- A line that cannot be read affects nothing but itself. Without such lines the listing has the same
    statements and the same region, and no report but the one on a drawing still open. The reports of a
    listing are one for each such line, in order, and that one. Each of them belongs to reading, and all but
    those on missing labels carry a label, which on a line is its first field. The statements are those of
    the lines that can be read, one line after the other and each under the label of its line. -/
theorem bad_lines_isolated (lines : List String) :
    ((loadLines (readableFrom {} lines)).close.statements = (loadLines lines).close.statements ∧
      (loadLines (readableFrom {} lines)).close.region = (loadLines lines).close.region ∧
      (loadLines (readableFrom {} lines)).close.errors = (loadLines lines).unclosed?.toList) ∧
    (loadLines lines).close.errors =
      (steps {} lines).filterMap problem? ++ (loadLines lines).unclosed?.toList ∧
    (∀ problem ∈ (loadLines lines).close.errors, (problem.kind = .lexical ∨ problem.kind = .parse) ∧
      (problem.code ≠ .missingLabel → problem.label.isSome = true)) ∧
    (∀ step ∈ steps {} lines, ∀ problem, step.1.loadLine step.2 = .error problem →
      problem.code ≠ .missingLabel → problem.label = some (String.ofList (Line.firstField step.2))) ∧
    (loadLines lines).close.statements = ((steps {} lines).filter isReadable).flatMap gained ∧
    (∀ step ∈ steps {} lines, ∀ s ∈ gained step, s.label = String.ofList (Line.firstField step.2)) ∧
    ∀ source, Text.lines source = lines → load source = (loadLines lines).close ∧
      load (Text.unlines (readableFrom {} lines)) = (loadLines (readableFrom {} lines)).close := by
  have cleaned := loadLines_readable lines
  rcases takeLines_eq {} lines with ⟨statements, errors, _⟩
  refine ⟨?_, ?_, ?_, ?_, ?_, ?_, ?_⟩
  · rw [cleaned]
    exact ⟨rfl, rfl, rfl⟩
  · exact congrArg (· ++ _) errors
  · intro problem mem
    rcases List.mem_append.1 mem with mem | mem
    · rw [show (loadLines lines).errors = _ from errors] at mem
      rcases List.mem_filterMap.1 mem with ⟨step, _, reported⟩
      rcases loadLine_error (loadLine_of_problem reported) with ⟨kind, named⟩
      exact ⟨kind, fun code => by rw [named code]; rfl⟩
    · rcases unclosed_isLabelled (labelsRegion_loadLines lines) mem with ⟨parse, labelled⟩
      exact ⟨Or.inr parse, fun _ => labelled⟩
  · intro step _ problem failed
    exact (loadLine_error failed).2
  · exact statements
  · intro step _
    exact gained_labels step
  · rintro source rfl
    refine ⟨rfl, ?_⟩
    have whole : ∀ line ∈ readableFrom {} (Text.lines source), '\n' ∉ line.toList := fun line mem =>
      Text.newline_not_mem_lines (readable_subset _ mem)
    rw [load, Text.lines_unlines whole]

end Listing

end Plotline

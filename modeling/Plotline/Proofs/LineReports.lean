/-
Module: Plotline.Proofs.LineReports
Layer: Proofs
Purpose: What is reported when a line cannot be read. A line that was cut into tokens starts with its label,
  and the check of its shape looks up no token that is not there, so the two reports about faults of the
  reader itself never arise. Every report that does arise belongs to reading, and names the first field of
  its line unless that is what is missing.
Main exports: Reading.IsReport, Line.tokenize_error, Line.ofText_ok, Statement.parseAll_labels,
  Reading.line_tokens, Reading.tokens_of_line, Reading.ofLine_sound, Listing.loadLine_error_cases,
  Listing.loadLine_error
-/
import Plotline.Proofs.StatementReading
import Plotline.Proofs.TokenLines

namespace Plotline

namespace Reading

/-- A report on a line that belongs to reading it, and names its first field unless a label is missing
    there. -/
def IsReport (text : String) (problem : Diagnostic) : Prop :=
  (problem.kind = .lexical ∨ problem.kind = .parse) ∧
    (problem.code ≠ .missingLabel → problem.label = some (String.ofList (Line.firstField text)))

end Reading

/-! ### Lines that cannot be cut into tokens -/

namespace Line

theorem scan_error {line : List Char} {problem : Diagnostic} (h : scan line = .error problem) :
    problem.code = .missingLabel ∨ problem.code = .illegalCharacter ∧
      problem.label = some (String.ofList (line.takeWhile isFieldChar)) := by
  simp only [scan] at h
  split at h
  · split at h
    · cases h
    · cases h
      exact Or.inr ⟨rfl, rfl⟩
  · cases h
    exact Or.inl rfl

/-- What is reported on a line that cannot be cut into tokens belongs to cutting it. -/
theorem tokenize_error {s : String} {problem : Diagnostic} (h : tokenize s = .error problem) :
    problem.kind = .lexical ∧
      (problem.code ≠ .missingLabel → problem.label = some (String.ofList (firstField s))) := by
  rcases bind_eq_error.1 h with unscanned | ⟨⟨label, written⟩, scanned, continued⟩
  · rcases scan_error unscanned with missing | ⟨illegal, named⟩
    · exact ⟨by rw [Diagnostic.kind, missing]; rfl, fun h => absurd missing h⟩
    · exact ⟨by rw [Diagnostic.kind, illegal]; rfl, fun _ => named⟩
  · rcases scan_eq_ok.1 scanned with ⟨_, body, _, rfl, rfl⟩
    rcases bind_eq_error.1 continued with flawed | ⟨_, _, done⟩
    · rw [expandSigns_line] at flawed
      rcases Shape.diagnose_error flawed with ⟨malformed, named⟩
      exact ⟨by rw [Diagnostic.kind, malformed]; rfl, fun _ => named⟩
    · cases done

/-- A line is read exactly when it is cut into tokens, and then under its first field. -/
theorem ofText_of_tokenize_ok {s : String} {ts : List Token} (h : tokenize s = .ok ts) :
    ofText s = .ok ⟨String.ofList (firstField s), ts⟩ := by
  rcases tokenize_eq_ok.1 h with ⟨_, body, _, _, rfl⟩
  simp only [ofText, h]
  rfl

theorem ofText_error {s : String} {problem : Diagnostic} (h : ofText s = .error problem) :
    problem.kind = .lexical ∧
      (problem.code ≠ .missingLabel → problem.label = some (String.ofList (firstField s))) := by
  cases tokenized : tokenize s with
  | error other =>
      simp only [ofText, tokenized] at h
      cases h
      exact tokenize_error tokenized
  | ok ts =>
      rw [ofText_of_tokenize_ok tokenized] at h
      cases h

theorem ofText_ok {s : String} {line : Line} (h : ofText s = .ok line) :
    line.label = String.ofList (firstField s) ∧ tokenize s = .ok line.tokens := by
  cases tokenized : tokenize s with
  | error other =>
      simp only [ofText, tokenized] at h
      cases h
  | ok ts =>
      rw [ofText_of_tokenize_ok tokenized] at h
      cases h
      exact ⟨rfl, rfl⟩

end Line

/-! ### Tokens that cannot be read as statements -/

theorem Complaint.diagnostic_inLabel (c : Complaint) (label : Label) :
    (c.diagnostic.inLabel label).kind = .parse ∧ (c.diagnostic.inLabel label).label = some label := by
  cases c <;> exact ⟨rfl, rfl⟩

namespace Statement

/-- Where no label stands among the tokens, the label before them is that of every complaint and of every
    statement. -/
theorem parseItems_labels {fuel : Nat} {current : Option Label} {label : Label} {r : Region}
    {ts : List Token} (under : current = some label) (noLabel : ∀ other, .label other ∉ ts) :
    (∀ problem, parseItems fuel current r ts = .error problem →
      ∃ complaint : Complaint, problem = complaint.diagnostic.inLabel label) ∧
    ∀ statements last, parseItems fuel current r ts = .ok (statements, last) →
      ∀ s ∈ statements, s.label = label := by
  fun_induction parseItems fuel current r ts with
  | case1 => simp
  | case2 => simp
  | case3 => simp
  | case4 fuel current r other rest ih => exact absurd (List.mem_cons_self) (noLabel other)
  | case5 => cases under
  | case6 fuel r tokens current _ _ _ complaint failed =>
      cases under
      constructor
      · intro problem h
        cases h
        exact ⟨complaint, rfl⟩
      · intro statements last h
        cases h
  | case7 fuel r tokens current _ _ _ command rest read ih =>
      cases under
      rcases Grammar.cmd_of_parse read with ⟨us, rfl, _, _⟩
      have later := ih rfl fun other mem => noLabel other (List.mem_append_right us mem)
      constructor
      · intro problem h
        rcases bind_eq_error.1 h with failed | ⟨_, _, done⟩
        · exact later.1 problem failed
        · cases done
      · intro statements last h
        rcases bind_eq_ok.1 h with ⟨⟨more, _⟩, others, done⟩
        cases done
        exact List.forall_mem_cons.2 ⟨rfl, later.2 more last others⟩

/-- A label and tokens without further labels are complained about, and read, under that label. -/
theorem parseAll_labels {label : Label} {r : Region} {ts : List Token}
    (noLabel : ∀ other, .label other ∉ ts) :
    (∀ problem, parseAll r (.label label :: ts) = .error problem →
      ∃ complaint : Complaint, problem = complaint.diagnostic.inLabel label) ∧
    ∀ statements last, parseAll r (.label label :: ts) = .ok (statements, last) →
      ∀ s ∈ statements, s.label = label := by
  have start : parseAll r (.label label :: ts) = parseItems ts.length (some label) r ts := by
    simp only [parseAll, List.length_cons, parseItems]
  rw [start]
  exact parseItems_labels rfl noLabel

end Statement

/-! ### Lines that cannot be read -/

namespace Reading

/-- The tokens of a line are its first field as a label, written tokens of the right shape, and the end. -/
theorem line_tokens {text : String} {line : Line} (h : Line.ofText text = .ok line) :
    ∃ body, line.tokens = .label line.label :: body ++ [.endOfLine] ∧ (∀ t ∈ body, t.IsWritten) ∧
      Shape.check (body ++ [.endOfLine]) = .ok () := by
  rcases Line.ofText_ok h with ⟨named, tokenized⟩
  have canonical := Line.isCanonical_of_tokenize tokenized
  rcases Line.tokenize_eq_ok.1 tokenized with ⟨_, _, _, _, tokens⟩
  rw [← named] at tokens
  generalize line.tokens = ts at canonical tokens ⊢
  cases canonical with
  | @intro label body _ written _ shape =>
      cases (List.cons.inj tokens).1
      exact ⟨body, rfl, written, shape⟩

/-- The tokens of a line are its first field as a label and tokens that are no labels. -/
theorem tokens_of_line {text : String} {line : Line} (h : Line.ofText text = .ok line) :
    ∃ body, line.tokens = .label line.label :: body ∧ ∀ other, .label other ∉ body := by
  rcases line_tokens h with ⟨body, tokens, written, _⟩
  rw [List.cons_append] at tokens
  refine ⟨body ++ [.endOfLine], tokens, ?_⟩
  intro other mem
  rcases List.mem_append.1 mem with mem | mem
  · exact written _ mem
  · cases List.mem_singleton.1 mem

/-- What became of a line says how far it was read. -/
theorem ofLine_sound (r : Region) (text : String) :
    match ofLine r text with
    | .skipped => isIdle text = true
    | .illegible problem => Line.ofText text = .error problem
    | .rejected line problem =>
        Line.ofText text = .ok line ∧ Statement.parseAll r line.tokens = .error problem
    | .accepted line statements last =>
        Line.ofText text = .ok line ∧ Statement.parseAll r line.tokens = .ok (statements, last) := by
  by_cases idle : isIdle text = true
  · rw [ofLine, if_pos idle]
    exact idle
  · rw [ofLine, if_neg idle]
    cases cut : Line.ofText text with
    | error problem => exact rfl
    | ok line =>
        dsimp only
        cases read : Statement.parseAll r line.tokens with
        | error problem => exact ⟨rfl, read⟩
        | ok result => exact ⟨rfl, read⟩

end Reading

namespace Listing

/-- A line that cannot be read could not be cut into tokens, or else there is a complaint about its tokens
    under its first field. -/
theorem loadLine_error_cases {l : Listing} {text : String} {problem : Diagnostic}
    (h : l.loadLine text = .error problem) :
    (problem.kind = .lexical ∧
      (problem.code ≠ .missingLabel → problem.label = some (String.ofList (Line.firstField text)))) ∨
    ∃ complaint : Complaint,
      problem = complaint.diagnostic.inLabel (String.ofList (Line.firstField text)) := by
  have sound := Reading.ofLine_sound l.region text
  unfold loadLine at h
  cases reading : Reading.ofLine l.region text with
  | skipped =>
      rw [reading] at h
      cases h
  | illegible other =>
      rw [reading] at h sound
      cases h
      exact Or.inl (Line.ofText_error sound)
  | rejected line other =>
      rw [reading] at h sound
      cases h
      rcases sound with ⟨cut, failed⟩
      rcases Reading.tokens_of_line cut with ⟨body, tokens, noLabel⟩
      rw [tokens] at failed
      rw [← (Line.ofText_ok cut).1]
      exact Or.inr ((Statement.parseAll_labels noLabel).1 _ failed)
  | accepted line statements last =>
      rw [reading] at h
      cases h

/-- The report on a line that cannot be read names its first field, unless a label is missing there. -/
theorem loadLine_error {l : Listing} {text : String} {problem : Diagnostic}
    (h : l.loadLine text = .error problem) : Reading.IsReport text problem := by
  rcases loadLine_error_cases h with ⟨lexical, named⟩ | ⟨complaint, rfl⟩
  · exact ⟨Or.inl lexical, named⟩
  · rcases complaint.diagnostic_inLabel (String.ofList (Line.firstField text)) with ⟨parse, named⟩
    exact ⟨Or.inr parse, fun _ => named⟩

end Listing

end Plotline

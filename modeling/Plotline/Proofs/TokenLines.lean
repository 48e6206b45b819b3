/-
Module: Plotline.Proofs.TokenLines
Layer: Proofs
Purpose: Which token lists lines are cut into, and that writing such a list out loses nothing.
  `Line.tokenize_eq_ok` takes the reading of a line apart into its four stages. `Line.IsCanonical` describes
  the lists it can give; each of them, written out with single spaces, is cut into itself again.
Main exports: Line.firstField, Line.tokenize_eq_ok, Line.tokenize_of_printed, Line.IsCanonical,
  Line.isCanonical_of_tokenize, Line.tokenize_canonical
-/
import Plotline.Proofs.ShapeCheck
import Plotline.Proofs.SignExpansion
import Plotline.Proofs.TokenText

namespace Plotline

theorem Token.signTokens_isWritten : ∀ t ∈ Token.signTokens, t.IsWritten := by
  have zero : Token.IsNumerals "0" := ⟨by decide, List.all_eq_true.1 rfl⟩
  have one : Token.IsNumerals "1" := ⟨by decide, List.all_eq_true.1 rfl⟩
  simp [Token.signTokens, Token.IsWritten, zero, one]

namespace Line

/-! ### The stages of reading a line -/

/-- The first field of a line, where its label stands. -/
def firstField (s : String) : List Char :=
  (normalize s).takeWhile isFieldChar

/-- The text after the first field. -/
def afterField (s : String) : List Char :=
  (normalize s).dropWhile isFieldChar

/-- The tokens of a line with the signs among them replaced. -/
theorem expandSigns_line (label : Label) (body : List Token) :
    Token.expandSigns (.label label :: body ++ [.endOfLine]) =
      .label label :: Token.expandFrom true body ++ [.endOfLine] := by
  rw [Token.expandSigns_eq, List.cons_append, Token.expandFrom, Token.expandFrom_append_endOfLine]
  rfl

/-- The scan of a line succeeds exactly when its first field is a label and the rest can be scanned. -/
theorem scan_eq_ok {line : List Char} {label : Label} {tokens : List Token} :
    scan line = .ok (label, tokens) ↔ Label.isField (line.takeWhile isFieldChar) = true ∧
      ∃ body, Token.scan (line.dropWhile isFieldChar) = .ok body ∧
        label = String.ofList (line.takeWhile isFieldChar) ∧
        tokens = .label label :: body ++ [.endOfLine] := by
  constructor
  · intro h
    simp only [scan] at h
    split at h
    case isFalse => cases h
    case isTrue field =>
      cases scanned : Token.scan (line.dropWhile isFieldChar) with
      | error c =>
          rw [scanned] at h
          cases h
      | ok body =>
          rw [scanned] at h
          cases h
          exact ⟨field, body, rfl, rfl, rfl⟩
  · rintro ⟨field, body, scanned, rfl, rfl⟩
    simp only [scan, field, scanned]
    rfl

/-- A line is cut into tokens exactly when its first field is a label, the rest can be scanned, and the
    tokens without signs pass the check of their shape. -/
theorem tokenize_eq_ok {s : String} {ts : List Token} :
    tokenize s = .ok ts ↔ Label.isField (firstField s) = true ∧
      ∃ body, Token.scan (afterField s) = .ok body ∧
        Shape.check (Token.expandFrom true body ++ [.endOfLine]) = .ok () ∧
        ts = .label (String.ofList (firstField s)) :: Token.expandFrom true body ++ [.endOfLine] := by
  constructor
  · intro h
    rcases bind_eq_ok.1 h with ⟨⟨label, written⟩, scanned, continued⟩
    rcases bind_eq_ok.1 continued with ⟨_, shape, done⟩
    rcases scan_eq_ok.1 scanned with ⟨field, body, bodyScanned, rfl, rfl⟩
    rw [expandSigns_line] at shape done
    cases done
    exact ⟨field, body, bodyScanned, Shape.diagnose_eq_ok.1 shape, rfl⟩
  · rintro ⟨field, body, bodyScanned, shape, rfl⟩
    apply bind_eq_ok.2
    refine ⟨_, scan_eq_ok.2 ⟨field, body, bodyScanned, rfl, rfl⟩, ?_⟩
    apply bind_eq_ok.2
    rw [expandSigns_line]
    exact ⟨(), Shape.diagnose_eq_ok.2 shape, rfl⟩

/-! ### Lines that are written out -/

theorem digits_of_isField {label : List Char} (field : Label.isField label = true) :
    label ≠ [] ∧ ∀ c ∈ label, c.isDigit = true := by
  rw [Label.isField, Bool.and_eq_true] at field
  exact ⟨by simpa using field.1, List.all_eq_true.1 field.2⟩

/-- A label and, after a space, tokens that are written out: such a line is cut into these tokens, if no
    minus among them is a sign and they pass the check of their shape. -/
theorem tokenize_of_printed {label : Label} {cs : List Char} {body : List Token}
    (field : Label.isField label.toList = true) (printed : Token.Printed cs body)
    (starts : ∀ c ∈ cs.head?, c = ' ')
    (stable : Token.expandFrom true body = body)
    (shape : Shape.check (body ++ [.endOfLine]) = .ok ()) :
    tokenize (String.ofList (label.toList ++ cs)) = .ok (.label label :: body ++ [.endOfLine]) := by
  rcases digits_of_isField field with ⟨nonempty, digits⟩
  have visible : ∀ c ∈ label.toList, Text.isVisible c = true := fun c mem =>
    Text.isVisible_of_isAlphanum ((Text.isAlphanum_iff c).2 (Or.inr (digits c mem)))
  have folded : Text.IsFolded label.toList := fun c mem => Text.isLower_of_isDigit (digits c mem)
  have ends : Text.EndsVisible (label.toList ++ cs) := by
    rcases printed.ends with ⟨rfl, _⟩ | ends
    · rw [List.append_nil]
      exact .of_forall nonempty visible
    · exact ends.append_left _
  have first : ∀ c ∈ (label.toList ++ cs).head?, Text.isVisible c = true := by
    intro c mem
    rw [List.head?_append_of_ne_nil _ nonempty] at mem
    exact visible c (List.mem_of_mem_head? mem)
  have normal := normalize_eq (folded.append printed.folded) first ends
  have fieldChars : ∀ c ∈ label.toList, isFieldChar c = true := fun c mem => by
    rw [isFieldChar, Text.isSpace_of_visible (visible c mem)]
    rfl
  have separated : ∀ c ∈ cs.head?, isFieldChar c = false := by
    intro c mem
    rw [starts c mem]
    rfl
  have fieldIs : firstField (String.ofList (label.toList ++ cs)) = label.toList := by
    rw [firstField, normal, Token.takeWhile_run fieldChars separated]
  have restIs : afterField (String.ofList (label.toList ++ cs)) = cs := by
    rw [afterField, normal, Token.dropWhile_run fieldChars separated]
  apply tokenize_eq_ok.2
  rw [fieldIs, restIs]
  refine ⟨field, body, printed.scan, ?_, ?_⟩
  · rw [stable]
    exact shape
  · rw [stable, String.ofList_toList]

/-! ### The token lists of lines -/

/-- The token lists that lines are cut into: a label, tokens that can be written and among which no minus is
    a sign, and the end of the line. -/
inductive IsCanonical : List Token → Prop where
  | intro {label : Label} {body : List Token} (field : Label.isField label.toList = true)
      (written : ∀ t ∈ body, t.IsWritten) (signFree : Token.SignFree (.label label :: body))
      (shape : Shape.check (body ++ [.endOfLine]) = .ok ()) :
      IsCanonical (.label label :: body ++ [.endOfLine])

/-- Tokens with a space before each of them. -/
def spaced (body : List Token) : List Char :=
  body.flatMap fun t => ' ' :: t.text.toList

theorem toList_intercalate_space (label : Label) (body : List Token) :
    (" ".intercalate (label :: body.map Token.text)).toList = label.toList ++ spaced body := by
  induction body generalizing label with
  | nil => simp [spaced]
  | cons t rest ih =>
      have more := ih t.text
      rw [List.map_cons, String.intercalate_cons_cons]
      simp [more, spaced]

theorem head_spaced (body : List Token) : ∀ c ∈ (spaced body).head?, c = ' ' := by
  cases body with
  | nil => simp [spaced]
  | cons t rest => simp [spaced]

theorem printed_spaced {body : List Token} (written : ∀ t ∈ body, t.IsWritten) :
    Token.Printed (spaced body) body := by
  induction body with
  | nil => exact .nil
  | cons t rest ih =>
      rcases List.forall_mem_cons.1 written with ⟨first, others⟩
      have breaks : Token.Breaks (spaced rest) := by
        intro c mem
        rw [head_spaced rest c mem]
        rfl
      exact .space (.token first (Or.inr breaks) (ih others))

/-- The text of a token list is its label and the other tokens with a space before each. -/
theorem text_eq (label other : Label) {body : List Token} (written : ∀ t ∈ body, t.IsWritten) :
    text ⟨other, .label label :: body ++ [.endOfLine]⟩ = String.ofList (label.toList ++ spaced body) := by
  have kept : body.filter (· != .endOfLine) = body := by
    apply List.filter_eq_self.2
    intro t mem
    apply bne_iff_ne.2
    rintro rfl
    exact written _ mem
  rw [← toList_intercalate_space, String.ofList_toList, text]
  simp [List.filter_append, kept, Token.text]

/-- A line that can be cut into tokens gives a canonical list. -/
theorem isCanonical_of_tokenize {s : String} {ts : List Token} (h : tokenize s = .ok ts) :
    IsCanonical ts := by
  rcases tokenize_eq_ok.1 h with ⟨field, body, scanned, shape, rfl⟩
  have folded : Text.IsFolded (afterField s) :=
    (isFolded_normalize s).mono (List.dropWhile_suffix isFieldChar).subset
  have written := Token.scan_isWritten folded scanned
  refine .intro ?_ (Token.forall_mem_expandFrom Token.signTokens_isWritten written true)
    (Token.signFree_expandFrom (fun _ => rfl) body) shape
  rw [String.toList_ofList]
  exact field

/-- Every line that can be cut into tokens gives a canonical list, and every canonical list comes from the
    line that is written out from it. -/
theorem tokenize_canonical :
    (∀ s ts, tokenize s = .ok ts → IsCanonical ts) ∧
      ∀ label ts, IsCanonical ts → tokenize (text ⟨label, ts⟩) = .ok ts := by
  constructor
  · intro s ts h
    exact isCanonical_of_tokenize h
  · rintro label ts ⟨field, written, signFree, shape⟩
    rw [text_eq _ _ written]
    exact tokenize_of_printed field (printed_spaced written) (head_spaced _) signFree.expandFrom_eq shape

end Line

end Plotline

/-
Module: Plotline.Proofs.TokenText
Layer: Proofs
Purpose: Tokens and their texts. `Token.IsWritten` says which tokens a line can hold between its label and
  its end; the scan of a folded text gives no others (`Token.scan_isWritten`). `Token.Printed` says how such
  tokens may be written: each as its text, with nothing or single spaces between them, but so that a word or
  a number is not run on by the character after it. Scanning such a text gives the tokens back
  (`Token.Printed.scan`), since neighbours neither merge nor split.
Main exports: Token.IsName, Token.IsWritten, Token.scan_isWritten, Token.Printed, Token.Printed.scan,
  Token.Printed.folded, Token.Printed.ends, Token.Writes
-/
import Plotline.Proofs.Characters
import Plotline.Proofs.Outcome

namespace Plotline

namespace Token

/-! ### What a line can hold -/

/-- A name: letters and digits, folded, a letter first, and spelled unlike every keyword. -/
structure IsName (s : String) : Prop where
  starts : ∃ c rest, s.toList = c :: rest ∧ c.isAlpha = true
  alphanumeric : ∀ c ∈ s.toList, c.isAlphanum = true
  folded : Text.IsFolded s.toList
  notKeyword : keyword? s = none

/-- A number literal: digits and points, at least one of them. -/
structure IsNumerals (s : String) : Prop where
  nonempty : s.toList ≠ []
  numerals : ∀ c ∈ s.toList, isNumeral c = true

/-- Quoted text: folded and without the quote that would end it. -/
structure IsQuotable (s : String) : Prop where
  inside : ∀ c ∈ s.toList, isInsideQuotes c = true
  folded : Text.IsFolded s.toList

/-- A token that a line can hold between its label and its end. -/
def IsWritten : Token → Prop
  | label _ | endOfLine => False
  | name s => IsName s
  | number s => IsNumerals s
  | quoted s => IsQuotable s
  | _ => True

/-! ### Keywords -/

theorem ofText?_eq_some {s : String} {w : Word} (h : Word.ofText? s = some w) : s = w.text := by
  have found := List.find?_some h
  exact (beq_iff_eq.1 found).symm

theorem builtin_ofText?_eq_some {s : String} {f : Builtin} (h : Builtin.ofText? s = some f) :
    s = f.text := by
  have found := List.find?_some h
  exact (beq_iff_eq.1 found).symm

/-- A word of a line is a command word, a function or a name. -/
theorem ofWord_cases (s : String) :
    (∃ w, ofWord s = .word w ∧ s = w.text) ∨ (∃ f, ofWord s = .builtin f ∧ s = f.text) ∨
      (ofWord s = .name s ∧ keyword? s = none) := by
  unfold ofWord keyword?
  cases isWord : Word.ofText? s with
  | some w => exact Or.inl ⟨w, rfl, ofText?_eq_some isWord⟩
  | none =>
      cases isBuiltin : Builtin.ofText? s with
      | some f => exact Or.inr (Or.inl ⟨f, rfl, builtin_ofText?_eq_some isBuiltin⟩)
      | none => exact Or.inr (Or.inr ⟨rfl, rfl⟩)

theorem text_ofWord (s : String) : (ofWord s).text = s := by
  rcases ofWord_cases s with ⟨w, isWord, spelled⟩ | ⟨f, isBuiltin, spelled⟩ | ⟨isName, _⟩
  · rw [isWord, spelled]
    rfl
  · rw [isBuiltin, spelled]
    rfl
  · rw [isName]
    rfl

theorem ofWord_of_notKeyword {s : String} (h : keyword? s = none) : ofWord s = .name s := by
  simp [ofWord, h]

theorem ofWord_word (w : Word) : ofWord w.text = .word w := by
  cases w <;> rfl

theorem ofWord_builtin (f : Builtin) : ofWord f.text = .builtin f := by
  cases f <;> rfl

/-! ### What a scan gives -/

theorem ofMark?_isWritten {c : Char} {t : Token} (h : ofMark? c = some t) : t.IsWritten := by
  unfold ofMark? at h
  split at h
  · cases h; trivial
  · cases h; trivial
  · cases h; trivial
  · cases h; trivial
  · cases h; trivial
  · rcases Option.map_eq_some_iff.1 h with ⟨op, _, rfl⟩
    trivial

theorem ofWord_isWritten {c : Char} {rest : List Char} (letter : c.isAlpha = true)
    (others : ∀ d ∈ rest, d.isAlphanum = true) (folded : Text.IsFolded (c :: rest)) :
    (ofWord (String.ofList (c :: rest))).IsWritten := by
  rcases ofWord_cases (String.ofList (c :: rest)) with
    ⟨w, isWord, _⟩ | ⟨f, isBuiltin, _⟩ | ⟨isName, free⟩
  · rw [isWord]; trivial
  · rw [isBuiltin]; trivial
  · rw [isName]
    refine ⟨⟨c, rest, by simp, letter⟩, ?_, by simpa using folded, free⟩
    intro d mem
    rw [String.toList_ofList] at mem
    rcases List.mem_cons.1 mem with rfl | mem
    · exact (Text.isAlphanum_iff d).2 (Or.inl letter)
    · exact others d mem

/-- The scan of a folded text gives only tokens that a line can hold. -/
theorem scan_isWritten {cs : List Char} {ts : List Token} (folded : Text.IsFolded cs)
    (h : scan cs = .ok ts) : ∀ t ∈ ts, t.IsWritten := by
  fun_induction scan cs generalizing ts with
  | case1 =>
      cases h
      simp
  | case2 c rest space ih => exact ih (folded.mono (List.subset_cons_self c rest)) h
  | case3 c rest space numeral token =>
      rename_i ih
      rcases map_eq_ok.1 h with ⟨others, scanned, rfl⟩
      have left : rest.dropWhile isNumeral ⊆ c :: rest :=
        List.subset_cons_of_subset c (List.dropWhile_suffix isNumeral).subset
      refine List.forall_mem_cons.2 ⟨⟨by simp, ?_⟩, ih (folded.mono left) scanned⟩
      intro d mem
      rw [String.toList_ofList] at mem
      rcases List.mem_cons.1 mem with rfl | mem
      · exact numeral
      · exact List.all_eq_true.1 List.all_takeWhile d mem
  | case4 c rest space numeral letter token =>
      rename_i ih
      rcases map_eq_ok.1 h with ⟨others, scanned, rfl⟩
      have left : rest.dropWhile Char.isAlphanum ⊆ c :: rest :=
        List.subset_cons_of_subset c (List.dropWhile_suffix Char.isAlphanum).subset
      have taken : c :: rest.takeWhile Char.isAlphanum ⊆ c :: rest :=
        List.cons_subset_cons c (List.takeWhile_prefix Char.isAlphanum).subset
      have others := List.all_eq_true.1 (List.all_takeWhile (p := Char.isAlphanum) (l := rest))
      exact List.forall_mem_cons.2
        ⟨ofWord_isWritten letter others (folded.mono taken), ih (folded.mono left) scanned⟩
  | case5 c rest space numeral letter quote token =>
      rename_i ih
      rcases map_eq_ok.1 h with ⟨others, scanned, rfl⟩
      have left : (rest.dropWhile isInsideQuotes).drop 1 ⊆ c :: rest :=
        List.subset_cons_of_subset c fun d mem =>
          (List.dropWhile_suffix isInsideQuotes).subset (List.mem_of_mem_drop mem)
      have taken : rest.takeWhile isInsideQuotes ⊆ c :: rest :=
        List.subset_cons_of_subset c (List.takeWhile_prefix isInsideQuotes).subset
      refine List.forall_mem_cons.2 ⟨⟨?_, ?_⟩, ih (folded.mono left) scanned⟩
      · rw [String.toList_ofList]
        exact List.all_eq_true.1 List.all_takeWhile
      · rw [String.toList_ofList]
        exact folded.mono taken
  | case6 c rest space numeral letter quote token mark ih =>
      rcases map_eq_ok.1 h with ⟨others, scanned, rfl⟩
      exact List.forall_mem_cons.2
        ⟨ofMark?_isWritten mark, ih (folded.mono (List.subset_cons_self c rest)) scanned⟩
  | case7 => cases h

/-! ### How tokens are written -/

/-- The token ends where its text does, whatever character comes next. A word or a number would take in
    more letters, digits or points. -/
def endsItself : Token → Bool
  | word _ | builtin _ | name _ | number _ => false
  | _ => true

/-- A character that a word or a number would take in. -/
def isRunOn (c : Char) : Bool :=
  c.isAlphanum || c == '.'

/-- The next character, if there is one, runs no word or number on. -/
def Breaks (cs : List Char) : Prop :=
  ∀ c ∈ cs.head?, isRunOn c = false

/-- A text in which tokens are written one after the other, with nothing or single spaces between them. A
    space stands before a token only, so the text ends with one. -/
inductive Printed : List Char → List Token → Prop where
  | nil : Printed [] []
  | space {t : Token} {cs : List Char} {ts : List Token} (h : Printed cs (t :: ts)) :
      Printed (' ' :: cs) (t :: ts)
  | token {t : Token} {cs : List Char} {ts : List Token} (written : t.IsWritten)
      (apart : t.endsItself = true ∨ Breaks cs) (h : Printed cs ts) :
      Printed (t.text.toList ++ cs) (t :: ts)

/-! ### Scanning what was written -/

theorem takeWhile_run {p : Char → Bool} {run cs : List Char} (all : ∀ c ∈ run, p c = true)
    (stops : ∀ c ∈ cs.head?, p c = false) : (run ++ cs).takeWhile p = run := by
  rw [List.takeWhile_append_of_pos all]
  cases cs with
  | nil => simp
  | cons c rest => simp [stops c rfl]

theorem dropWhile_run {p : Char → Bool} {run cs : List Char} (all : ∀ c ∈ run, p c = true)
    (stops : ∀ c ∈ cs.head?, p c = false) : (run ++ cs).dropWhile p = cs := by
  rw [List.dropWhile_append_of_pos all]
  cases cs with
  | nil => rfl
  | cons c rest => simp [stops c rfl]

theorem isVisible_of_isNumeral {c : Char} (h : isNumeral c = true) : Text.isVisible c = true := by
  rcases Bool.or_eq_true_iff.1 h with digit | point
  · exact Text.isVisible_of_isAlphanum ((Text.isAlphanum_iff c).2 (Or.inr digit))
  · rw [beq_iff_eq.1 point]
    decide

theorem isNumeral_of_isAlpha {c : Char} (h : c.isAlpha = true) : isNumeral c = false := by
  rw [isNumeral, Bool.or_eq_false_iff]
  constructor
  · cases digit : c.isDigit with
    | false => rfl
    | true =>
        rw [Text.isAlpha_of_isDigit digit] at h
        cases h
  · rw [beq_eq_false_iff_ne]
    rintro rfl
    cases h

theorem Breaks.numeral {cs : List Char} (h : Breaks cs) : ∀ c ∈ cs.head?, isNumeral c = false := by
  intro c mem
  have stops := h c mem
  rw [isRunOn, Bool.or_eq_false_iff, Char.isAlphanum, Bool.or_eq_false_iff] at stops
  rw [isNumeral, Bool.or_eq_false_iff]
  exact ⟨stops.1.2, stops.2⟩

theorem Breaks.alphanum {cs : List Char} (h : Breaks cs) :
    ∀ c ∈ cs.head?, c.isAlphanum = false := by
  intro c mem
  exact (Bool.or_eq_false_iff.1 (h c mem)).1

theorem scan_nil : scan [] = .ok [] := by
  rw [scan]

theorem scan_space (cs : List Char) : scan (' ' :: cs) = scan cs := by
  rw [scan]
  rfl

theorem scan_number {s : String} (h : IsNumerals s) {cs : List Char} (breaks : Breaks cs) :
    scan (s.toList ++ cs) = (scan cs).map (number s :: ·) := by
  rcases hs : s.toList with _ | ⟨c, rest⟩
  · exact absurd hs h.nonempty
  · have all : ∀ d ∈ c :: rest, isNumeral d = true := hs ▸ h.numerals
    have numeral := all c (by simp)
    have others : ∀ d ∈ rest, isNumeral d = true := fun d mem => all d (by simp [mem])
    have same : String.ofList (c :: rest) = s := by rw [← hs, String.ofList_toList]
    rw [List.cons_append, scan]
    simp only [Text.isSpace_of_visible (isVisible_of_isNumeral numeral), numeral,
      takeWhile_run others breaks.numeral, dropWhile_run others breaks.numeral, same]
    rfl

theorem scan_word {s : String} (starts : ∃ c rest, s.toList = c :: rest ∧ c.isAlpha = true)
    (all : ∀ c ∈ s.toList, c.isAlphanum = true) {cs : List Char} (breaks : Breaks cs) :
    scan (s.toList ++ cs) = (scan cs).map (ofWord s :: ·) := by
  rcases starts with ⟨c, rest, hs, letter⟩
  rw [hs] at all
  have others : ∀ d ∈ rest, d.isAlphanum = true := fun d mem => all d (by simp [mem])
  have visible := Text.isVisible_of_isAlphanum (all c (by simp))
  have same : String.ofList (c :: rest) = s := by rw [← hs, String.ofList_toList]
  rw [hs, List.cons_append, scan]
  simp only [Text.isSpace_of_visible visible, isNumeral_of_isAlpha letter, letter,
    takeWhile_run others breaks.alphanum, dropWhile_run others breaks.alphanum, same]
  rfl

theorem scan_quoted {s : String} (h : IsQuotable s) (cs : List Char) :
    scan ((quoted s).text.toList ++ cs) = (scan cs).map (quoted s :: ·) := by
  have stops : ∀ c ∈ ('"' :: cs).head?, isInsideQuotes c = false := by
    intro c mem
    cases mem
    rfl
  have text : (quoted s).text.toList ++ cs = '"' :: (s.toList ++ '"' :: cs) := by simp [Token.text]
  rw [text, scan, takeWhile_run h.inside stops, dropWhile_run h.inside stops, String.ofList_toList]
  rfl

/-- A token that is written before other text is scanned as itself, and the scan goes on after it. -/
theorem scan_text {t : Token} {cs : List Char} (written : t.IsWritten)
    (apart : t.endsItself = true ∨ Breaks cs) :
    scan (t.text.toList ++ cs) = (scan cs).map (t :: ·) := by
  cases t with
  | label => exact written.elim
  | endOfLine => exact written.elim
  | name s =>
      have scanned := scan_word written.starts written.alphanumeric
        (apart.resolve_left (by simp [endsItself]))
      rw [ofWord_of_notKeyword written.notKeyword] at scanned
      exact scanned
  | number s => exact scan_number written (apart.resolve_left (by simp [endsItself]))
  | quoted s => exact scan_quoted written cs
  | word w =>
      have scanned := scan_word (s := w.text) (by cases w <;> exact ⟨_, _, rfl, rfl⟩)
        (by cases w <;> exact List.all_eq_true.1 rfl) (apart.resolve_left (by simp [endsItself]))
      rw [ofWord_word] at scanned
      exact scanned
  | builtin f =>
      have scanned := scan_word (s := f.text) (by cases f <;> exact ⟨_, _, rfl, rfl⟩)
        (by cases f <;> exact List.all_eq_true.1 rfl) (apart.resolve_left (by simp [endsItself]))
      rw [ofWord_builtin] at scanned
      exact scanned
  | operator op =>
      cases op <;> exact scan.eq_2 _ _
  | openParen | closeParen | openBracket | closeBracket | comma => exact scan.eq_2 _ _

/-! ### The ends of what was written -/

theorem isLower_of_isNumeral {c : Char} (h : isNumeral c = true) : c.isLower = false := by
  rcases Bool.or_eq_true_iff.1 h with digit | point
  · exact Text.isLower_of_isDigit digit
  · rw [beq_iff_eq.1 point]
    decide

theorem text_isFolded {t : Token} (written : t.IsWritten) : Text.IsFolded t.text.toList := by
  cases t with
  | label => exact written.elim
  | endOfLine => exact written.elim
  | name s => exact written.folded
  | number s => exact fun c mem => isLower_of_isNumeral (written.numerals c mem)
  | quoted s =>
      have text : (quoted s).text.toList = ['"'] ++ s.toList ++ ['"'] := by simp [Token.text]
      have quote : Text.IsFolded ['"'] := by decide
      rw [text]
      exact (quote.append written.folded).append quote
  | word w => cases w <;> decide
  | builtin f => cases f <;> decide
  | operator op => cases op <;> decide
  | openParen | closeParen | openBracket | closeBracket | comma => decide

theorem text_endsVisible {t : Token} (written : t.IsWritten) : Text.EndsVisible t.text.toList := by
  cases t with
  | label => exact written.elim
  | endOfLine => exact written.elim
  | name s =>
      rcases written.starts with ⟨c, rest, text, _⟩
      apply Text.EndsVisible.of_forall
      · simp [Token.text, text]
      · exact fun c mem => Text.isVisible_of_isAlphanum (written.alphanumeric c mem)
  | number s =>
      exact .of_forall written.nonempty fun c mem => isVisible_of_isNumeral (written.numerals c mem)
  | quoted s => exact ⟨'"' :: s.toList, '"', by simp [Token.text], rfl⟩
  | word w => cases w <;> exact .of_forall (by decide) (List.all_eq_true.1 rfl)
  | builtin f => cases f <;> exact .of_forall (by decide) (List.all_eq_true.1 rfl)
  | operator op => cases op <;> exact .of_forall (by decide) (List.all_eq_true.1 rfl)
  | openParen | closeParen | openBracket | closeBracket | comma =>
      exact .of_forall (by decide) (List.all_eq_true.1 rfl)

namespace Printed

/-- Nothing is left to fold in a text in which tokens are written. -/
theorem folded {cs : List Char} {ts : List Token} (h : Printed cs ts) : Text.IsFolded cs := by
  induction h with
  | nil => exact fun c mem => absurd mem List.not_mem_nil
  | space _ ih => exact List.forall_mem_cons.2 ⟨rfl, ih⟩
  | token written _ _ ih => exact (text_isFolded written).append ih

/-- Such a text is empty, or it ends with the last character of a token. -/
theorem ends {cs : List Char} {ts : List Token} (h : Printed cs ts) :
    cs = [] ∧ ts = [] ∨ Text.EndsVisible cs := by
  induction h with
  | nil => exact Or.inl ⟨rfl, rfl⟩
  | space _ ih =>
      rcases ih with ⟨_, none⟩ | ends
      · cases none
      · exact Or.inr (ends.append_left [' '])
  | token written _ _ ih =>
      right
      rcases ih with ⟨rfl, _⟩ | ends
      · rw [List.append_nil]
        exact text_endsVisible written
      · exact ends.append_left _

/-- Scanning a text in which tokens are written gives the tokens. -/
theorem scan {cs : List Char} {ts : List Token} (h : Printed cs ts) : Token.scan cs = .ok ts := by
  induction h with
  | nil => exact scan_nil
  | space _ ih => rw [scan_space, ih]
  | token written apart _ ih =>
      rw [scan_text written apart, ih]
      rfl

end Printed

/-! ### Putting texts together -/

/-- Tokens are written in a text, whatever is written after it that does not run the last of them on. -/
def Writes (cs : List Char) (ts : List Token) : Prop :=
  ∀ rest more, Breaks rest → Printed rest more → Printed (cs ++ rest) (ts ++ more)

namespace Writes

variable {cs ds : List Char} {ts us : List Token} {t : Token}

theorem token (written : t.IsWritten) : Writes t.text.toList [t] :=
  fun _ _ breaks printed => .token written (Or.inr breaks) printed

/-- After a token that ends by itself anything may follow. -/
theorem mark (written : t.IsWritten) (ends : t.endsItself = true) (h : Writes cs ts) :
    Writes (t.text.toList ++ cs) (t :: ts) := by
  intro rest more breaks printed
  rw [List.append_assoc]
  exact .token written (Or.inl ends) (h rest more breaks printed)

/-- The second text starts with a character that runs nothing on. -/
theorem append (first : Writes cs ts) {c : Char} (starts : isRunOn c = false)
    (second : Writes (c :: ds) us) : Writes (cs ++ c :: ds) (ts ++ us) := by
  intro rest more breaks printed
  rw [List.append_assoc, List.append_assoc]
  apply first _ _ _ (second rest more breaks printed)
  intro d mem
  cases mem
  exact starts

/-- Two texts with a space between them. -/
theorem spaced (first : Writes cs ts) (second : Writes ds us) (nonempty : us ≠ []) :
    Writes (cs ++ ' ' :: ds) (ts ++ us) := by
  intro rest more breaks printed
  rw [List.append_assoc, List.append_assoc]
  apply first
  · intro d mem
    cases mem
    rfl
  · have after := second rest more breaks printed
    cases us with
    | nil => exact absurd rfl nonempty
    | cons => exact .space after

/-- Two texts with a comma and a space between them. -/
theorem listed (first : Writes cs ts) (second : Writes ds us) (nonempty : us ≠ []) :
    Writes (cs ++ ',' :: ' ' :: ds) (ts ++ .comma :: us) := by
  have comma : Writes ([','] ++ ' ' :: ds) ([.comma] ++ us) :=
    spaced (token (t := .comma) trivial) second nonempty
  exact first.append rfl comma

theorem printed (h : Writes cs ts) : Printed cs ts := by
  have whole := h [] [] (by simp [Breaks]) .nil
  rwa [List.append_nil, List.append_nil] at whole

end Writes

end Token

end Plotline

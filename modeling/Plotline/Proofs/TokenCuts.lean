/-
Module: Plotline.Proofs.TokenCuts
Layer: Proofs
Purpose: What becomes of the characters of a line. `Token.Cuts` says how a text may be cut: into separators,
  words, numbers and marks that are followed by nothing they would take in, and quoted text, up to the end or
  up to a character that belongs to no token. Every scan is such a cut (`Token.scan_cuts`), and the facts
  about scans are inductions on it. Written one after the other the tokens are the text without the
  separators outside of quoted text, each stands where it was found, and a scan that fails names the first
  character that may not stand where it does.
Main exports: Text.marked, Text.outside, Text.squeezed, Token.isLegal, Token.absorbs, Token.Cuts,
  Token.scan_cuts, Token.Cuts.ends_at_firstIllegal, Token.Cuts.texts, Token.Cuts.standsIn,
  Line.characters_accounted_for
-/
import Plotline.Proofs.TokenLines

namespace Plotline

/-! ### Inside and outside of quoted text -/

namespace Text

/-- Each character of a text with whether it belongs to quoted text. The flag says whether the text starts
    inside of it; a quote belongs to what it starts or ends. -/
def marked : Bool → List Char → List (Char × Bool)
  | _, [] => []
  | inside, c :: rest => (c, inside || c == '"') :: marked (inside ^^ (c == '"')) rest

/-- Whether a text ends inside of quoted text. -/
def endsInside : Bool → List Char → Bool
  | inside, [] => inside
  | inside, c :: rest => endsInside (inside ^^ (c == '"')) rest

/-- The characters outside of quoted text. -/
def outside (cs : List Char) : List Char :=
  ((marked false cs).filter fun (_, quoted) => !quoted).map Prod.fst

/-- The text without the separators outside of quoted text. -/
def squeezed (cs : List Char) : List Char :=
  ((marked false cs).filter fun (c, quoted) => quoted || !isSpace c).map Prod.fst

/-- The last quoted text of a text has no quote that ends it. -/
def isUnterminated (cs : List Char) : Bool :=
  endsInside false cs

/-- The quote that unterminated text lacks. -/
def missingQuote (cs : List Char) : List Char :=
  if isUnterminated cs then ['"'] else []

theorem marked_append (inside : Bool) (cs ds : List Char) :
    marked inside (cs ++ ds) = marked inside cs ++ marked (endsInside inside cs) ds := by
  induction cs generalizing inside with
  | nil => rfl
  | cons c rest ih => exact congrArg ((c, inside || c == '"') :: ·) (ih _)

theorem endsInside_append (inside : Bool) (cs ds : List Char) :
    endsInside inside (cs ++ ds) = endsInside (endsInside inside cs) ds := by
  induction cs generalizing inside with
  | nil => rfl
  | cons c rest ih => exact ih _

/-- Without a quote nothing changes sides. -/
theorem marked_of_no_quote {cs : List Char} (free : ∀ c ∈ cs, c ≠ '"') (inside : Bool) :
    marked inside cs = cs.map (·, inside) ∧ endsInside inside cs = inside := by
  induction cs with
  | nil => exact ⟨rfl, rfl⟩
  | cons c rest ih =>
      obtain ⟨first, others⟩ := List.forall_mem_cons.1 free
      obtain ⟨marks, ends⟩ := ih others
      have same : (c == '"') = false := beq_eq_false_iff_ne.2 first
      simp only [marked, endsInside, same, Bool.or_false, Bool.xor_false, List.map_cons]
      exact ⟨congrArg _ marks, ends⟩

theorem map_fst_marked (inside : Bool) (cs : List Char) : (marked inside cs).map Prod.fst = cs := by
  induction cs generalizing inside with
  | nil => rfl
  | cons c rest ih => exact congrArg (c :: ·) (ih _)

/-- Only separators leave nothing. -/
theorem isSpace_of_squeezed {cs : List Char} (nothing : squeezed cs = []) : ∀ c ∈ cs, isSpace c = true := by
  intro c mem
  rw [← map_fst_marked false cs] at mem
  obtain ⟨⟨d, quoted⟩, found, rfl⟩ := List.mem_map.1 mem
  have dropped := List.filter_eq_nil_iff.1 (List.map_eq_nil_iff.1 nothing) _ found
  simp only [Bool.or_eq_true, not_or, Bool.not_eq_true, Bool.not_eq_false'] at dropped
  exact dropped.2

section Append

variable {cs : List Char} (closed : isUnterminated cs = false) (ds : List Char)
include closed

theorem outside_append : outside (cs ++ ds) = outside cs ++ outside ds := by
  rw [outside, marked_append, show endsInside false cs = false from closed, List.filter_append,
    List.map_append]
  rfl

theorem squeezed_append : squeezed (cs ++ ds) = squeezed cs ++ squeezed ds := by
  rw [squeezed, marked_append, show endsInside false cs = false from closed, List.filter_append,
    List.map_append]
  rfl

theorem isUnterminated_append : isUnterminated (cs ++ ds) = isUnterminated ds := by
  rw [isUnterminated, endsInside_append, show endsInside false cs = false from closed]
  rfl

theorem missingQuote_append : missingQuote (cs ++ ds) = missingQuote ds := by
  rw [missingQuote, isUnterminated_append closed]
  rfl

end Append

/-- Quoted text that has no end. -/
theorem marked_quote {s : List Char} (free : ∀ c ∈ s, c ≠ '"') :
    outside ('"' :: s) = [] ∧ squeezed ('"' :: s) = '"' :: s ∧ isUnterminated ('"' :: s) = true := by
  obtain ⟨marks, ends⟩ := marked_of_no_quote free true
  have whole : marked false ('"' :: s) = ('"', true) :: s.map (·, true) := congrArg _ marks
  refine ⟨?_, ?_, ends⟩
  · rw [outside, whole]
    simp
  · rw [squeezed, whole]
    simp [List.filter_map, Function.comp_def]

/-- Quoted text from quote to quote. -/
theorem marked_quotes {s : List Char} (free : ∀ c ∈ s, c ≠ '"') :
    outside ('"' :: s ++ ['"']) = [] ∧ squeezed ('"' :: s ++ ['"']) = '"' :: s ++ ['"'] ∧
      isUnterminated ('"' :: s ++ ['"']) = false := by
  obtain ⟨marks, ends⟩ := marked_of_no_quote free true
  have opened : marked false ('"' :: s) = ('"', true) :: s.map (·, true) := congrArg _ marks
  have stays : endsInside false ('"' :: s) = true := ends
  have whole : marked false ('"' :: s ++ ['"']) = ('"', true) :: s.map (·, true) ++ [('"', true)] := by
    rw [marked_append, opened, stays]
    rfl
  refine ⟨?_, ?_, ?_⟩
  · rw [outside, whole]
    simp
  · rw [squeezed, whole]
    simp [List.filter_map, Function.comp_def]
  · rw [isUnterminated, endsInside_append, stays]
    rfl

end Text

/-! ### Characters that may stand in a line -/

namespace Token

/-- The characters that are tokens by themselves. -/
def marks : List Char :=
  ['(', ')', '[', ']', ',', '^', '*', '/', '+', '-', '=', '<', '>', '!']

/-- A character that may stand outside of quoted text: a separator, a letter or digit, a point or a mark. -/
def isLegal (c : Char) : Bool :=
  Text.isSpace c || c.isAlphanum || c == '.' || marks.contains c

/-- A character that a token other than quoted text may be written with. -/
def isPlain (c : Char) : Bool :=
  isLegal c && !Text.isSpace c

/-- The token would take the character in if it came next. -/
def absorbs : Token → Char → Bool
  | word _, c | builtin _, c | name _, c => c.isAlphanum
  | number _, c => isNumeral c
  | _, _ => false

theorem not_mem_marks {c : Char} (h : ofMark? c = none) : c ∉ marks := by
  intro mem
  simp only [marks, List.mem_cons, List.not_mem_nil, or_false] at mem
  rcases mem with rfl | rfl | rfl | rfl | rfl | rfl | rfl | rfl | rfl | rfl | rfl | rfl | rfl | rfl
  all_goals cases h

theorem text_of_mark {c : Char} {t : Token} (h : ofMark? c = some t) :
    t.text.toList = [c] ∧ c ∈ marks := by
  unfold ofMark? at h
  split at h
  case h_6 =>
    obtain ⟨op, isOperator, rfl⟩ := Option.map_eq_some_iff.1 h
    unfold Operator.ofChar? at isOperator
    split at isOperator
    all_goals cases isOperator
    all_goals exact ⟨rfl, by decide⟩
  all_goals
    cases h
    exact ⟨rfl, by decide⟩

theorem isPlain_of_isNumeral {c : Char} (h : isNumeral c = true) : isPlain c = true := by
  have visible := Text.isSpace_of_visible (isVisible_of_isNumeral h)
  rcases Bool.or_eq_true_iff.1 h with digit | point
  · simp [isPlain, isLegal, visible, Char.isAlphanum, digit]
  · simp [isPlain, isLegal, visible, point]

theorem isPlain_of_isAlphanum {c : Char} (h : c.isAlphanum = true) : isPlain c = true := by
  have visible := Text.isSpace_of_visible (Text.isVisible_of_isAlphanum h)
  simp [isPlain, isLegal, visible, h]

theorem outside_of_plain {cs : List Char} (plain : ∀ c ∈ cs, isPlain c = true) :
    Text.outside cs = cs ∧ Text.squeezed cs = cs ∧ Text.isUnterminated cs = false := by
  have free : ∀ c ∈ cs, c ≠ '"' := by
    rintro c mem rfl
    cases plain _ mem
  obtain ⟨marks, ends⟩ := Text.marked_of_no_quote free false
  refine ⟨?_, ?_, ends⟩
  · simp [Text.outside, marks, List.filter_map, Function.comp_def]
  · have kept : cs.filter (fun c => !Text.isSpace c) = cs :=
      List.filter_eq_self.2 fun c mem => (Bool.and_eq_true_iff.1 (plain c mem)).2
    simp [Text.squeezed, marks, List.filter_map, Function.comp_def, kept]

/-! ### How a text is cut -/

/-- A text and what comes of cutting it into tokens: the tokens, or the character that belongs to none. -/
inductive Cuts : List Char → Except Char (List Token) → Prop where
  | nil : Cuts [] (.ok [])
  | space {c : Char} {cs : List Char} {r : Except Char (List Token)} (isSpace : Text.isSpace c = true)
      (later : Cuts cs r) : Cuts (c :: cs) r
  /-- A word, a number or a mark, with nothing after it that it would take in. -/
  | token {t : Token} {cs : List Char} {r : Except Char (List Token)}
      (plain : ∀ c ∈ t.text.toList, isPlain c = true) (whole : ∀ c ∈ cs.head?, t.absorbs c = false)
      (later : Cuts cs r) : Cuts (t.text.toList ++ cs) (r.map (t :: ·))
  | quotes {s cs : List Char} {r : Except Char (List Token)} (free : ∀ c ∈ s, c ≠ '"')
      (later : Cuts cs r) : Cuts ('"' :: s ++ ['"'] ++ cs) (r.map (quoted (String.ofList s) :: ·))
  | unterminated {s : List Char} (free : ∀ c ∈ s, c ≠ '"') :
      Cuts ('"' :: s) (.ok [quoted (String.ofList s)])
  | illegal {c : Char} {cs : List Char} (notQuote : c ≠ '"') (isIllegal : isLegal c = false) :
      Cuts (c :: cs) (.error c)

theorem head?_dropWhile (p : Char → Bool) (cs : List Char) :
    ∀ c ∈ (cs.dropWhile p).head?, p c = false := by
  intro c mem
  have stops := List.head?_dropWhile_not p cs
  rw [mem] at stops
  exact stops

theorem isInsideQuotes_iff {c : Char} : isInsideQuotes c = true ↔ c ≠ '"' :=
  bne_iff_ne

/-- A word or a number takes in what it can. -/
theorem cuts_run {t : Token} {p : Char → Bool} {c : Char} {rest : List Char} {r : Except Char (List Token)}
    (text : t.text.toList = c :: rest.takeWhile p) (takes : t.absorbs = p) (first : isPlain c = true)
    (run : ∀ d, p d = true → isPlain d = true) (later : Cuts (rest.dropWhile p) r) :
    Cuts (c :: rest) (r.map (t :: ·)) := by
  have plain : ∀ d ∈ t.text.toList, isPlain d = true := by
    rw [text]
    exact List.forall_mem_cons.2 ⟨first, fun d mem => run d (List.all_eq_true.1 List.all_takeWhile d mem)⟩
  have whole : ∀ d ∈ (rest.dropWhile p).head?, t.absorbs d = false := by
    rw [takes]
    exact head?_dropWhile p rest
  have all := Cuts.token plain whole later
  rwa [text, List.cons_append, List.takeWhile_append_dropWhile] at all

theorem absorbs_ofWord (s : String) : (ofWord s).absorbs = Char.isAlphanum := by
  rcases ofWord_cases s with ⟨w, isWord, _⟩ | ⟨f, isBuiltin, _⟩ | ⟨isName, _⟩
  · rw [isWord]
    rfl
  · rw [isBuiltin]
    rfl
  · rw [isName]
    rfl

theorem absorbs_of_mark {c : Char} {t : Token} (h : ofMark? c = some t) (d : Char) : t.absorbs d = false := by
  unfold ofMark? at h
  split at h
  case h_6 =>
    obtain ⟨op, _, rfl⟩ := Option.map_eq_some_iff.1 h
    rfl
  all_goals
    cases h
    rfl

/-- Quoted text runs to the next quote, or to the end if there is none. -/
theorem cuts_quoted {rest : List Char}
    (later : Cuts ((rest.dropWhile isInsideQuotes).drop 1) (scan ((rest.dropWhile isInsideQuotes).drop 1))) :
    Cuts ('"' :: rest) ((scan ((rest.dropWhile isInsideQuotes).drop 1)).map
      (quoted (String.ofList (rest.takeWhile isInsideQuotes)) :: ·)) := by
  have free : ∀ c ∈ rest.takeWhile isInsideQuotes, c ≠ '"' := fun c mem =>
    isInsideQuotes_iff.1 (List.all_eq_true.1 List.all_takeWhile c mem)
  have whole := List.takeWhile_append_dropWhile (p := isInsideQuotes) (l := rest)
  cases left : rest.dropWhile isInsideQuotes with
  | nil =>
      have all := Cuts.unterminated free
      rw [left, List.append_nil] at whole
      rw [List.drop_nil, scan_nil]
      rwa [whole] at all ⊢
  | cons c more =>
      have isQuote : c = '"' := by
        have stops := head?_dropWhile isInsideQuotes rest c (by rw [left]; rfl)
        by_contra other
        rw [isInsideQuotes_iff.2 other] at stops
        cases stops
      rw [left] at later
      have all := Cuts.quotes free later
      rw [left, isQuote] at whole
      rwa [List.append_assoc, List.singleton_append, List.cons_append, List.drop_one, List.tail_cons,
        whole] at all

/-- Every scan is a cut. -/
theorem scan_cuts (cs : List Char) : Cuts cs (scan cs) := by
  fun_induction scan cs with
  | case1 => exact .nil
  | case2 c rest space ih => exact .space space ih
  | case3 c rest space numeral token =>
      rename_i ih
      exact cuts_run String.toList_ofList rfl (isPlain_of_isNumeral numeral) (fun _ => isPlain_of_isNumeral) ih
  | case4 c rest space numeral letter token =>
      rename_i ih
      have text : token.text.toList = c :: rest.takeWhile Char.isAlphanum := by
        rw [text_ofWord, String.toList_ofList]
      have first := isPlain_of_isAlphanum ((Text.isAlphanum_iff c).2 (Or.inl letter))
      exact cuts_run text (absorbs_ofWord _) first (fun _ => isPlain_of_isAlphanum) ih
  | case5 c rest space numeral letter quote token =>
      rename_i ih
      rw [beq_iff_eq.1 quote]
      exact cuts_quoted ih
  | case6 c rest space numeral letter quote token mark ih =>
      obtain ⟨text, isMark⟩ := text_of_mark mark
      have plain : ∀ d ∈ token.text.toList, isPlain d = true := by
        rw [text, List.forall_mem_singleton]
        simp [isPlain, isLegal, isMark, space]
      have all := Cuts.token plain (fun d _ => absorbs_of_mark mark d) ih
      rwa [text, List.singleton_append] at all
  | case7 c rest space numeral letter quote mark =>
      have other := not_mem_marks mark
      have noDigit : c.isDigit = false ∧ (c == '.') = false := by simpa [isNumeral] using numeral
      apply Cuts.illegal
      · simpa using quote
      · simp [isLegal, Char.isAlphanum, space, letter, noDigit, other]

/-! ### What cutting a text comes to -/

/-- The first character outside of quoted text that may not stand there. -/
def firstIllegal? (cs : List Char) : Option Char :=
  (Text.outside cs).find? fun c => !isLegal c

/-- The character that a cut ends with. -/
def lastCut? : Except Char (List Token) → Option Char
  | .ok _ => none
  | .error c => some c

theorem lastCut?_map (r : Except Char (List Token)) (f : List Token → List Token) :
    lastCut? (r.map f) = lastCut? r := by
  cases r <;> rfl

theorem firstIllegal?_append {cs : List Char} (closed : Text.isUnterminated cs = false)
    (legal : ∀ c ∈ Text.outside cs, isLegal c = true) (ds : List Char) :
    firstIllegal? (cs ++ ds) = firstIllegal? ds := by
  have none : (Text.outside cs).find? (fun c => !isLegal c) = none := by
    simpa using legal
  rw [firstIllegal?, Text.outside_append closed, List.find?_append, none]
  rfl

theorem marked_space {c : Char} (isSpace : Text.isSpace c = true) :
    Text.outside [c] = [c] ∧ Text.squeezed [c] = [] ∧ Text.isUnterminated [c] = false := by
  have free : ∀ d ∈ [c], d ≠ '"' := by
    rintro d mem rfl
    cases List.mem_singleton.1 mem
    cases isSpace
  obtain ⟨marks, ends⟩ := Text.marked_of_no_quote free false
  refine ⟨?_, ?_, ends⟩
  · simp [Text.outside, marks]
  · simp [Text.squeezed, marks, isSpace]

namespace Cuts

variable {cs : List Char} {r : Except Char (List Token)}

/-- A cut ends early exactly if there is a character that may not stand where it does, and then at the first
    of them. -/
theorem ends_at_firstIllegal (h : Cuts cs r) : lastCut? r = firstIllegal? cs := by
  induction h with
  | nil => rfl
  | @space c cs r isSpace later ih =>
      obtain ⟨outside, _, closed⟩ := marked_space isSpace
      have legal : ∀ d ∈ Text.outside [c], isLegal d = true := by
        rw [outside, List.forall_mem_singleton]
        simp [isLegal, isSpace]
      exact ih.trans (firstIllegal?_append closed legal cs).symm
  | @token t cs r plain whole later ih =>
      obtain ⟨outside, _, closed⟩ := outside_of_plain plain
      have legal : ∀ d ∈ Text.outside t.text.toList, isLegal d = true := by
        rw [outside]
        exact fun d mem => (Bool.and_eq_true_iff.1 (plain d mem)).1
      rw [lastCut?_map, firstIllegal?_append closed legal, ih]
  | @quotes s cs r free later ih =>
      obtain ⟨outside, _, closed⟩ := Text.marked_quotes free
      have legal : ∀ d ∈ Text.outside ('"' :: s ++ ['"']), isLegal d = true := by
        rw [outside]
        exact List.forall_mem_nil _
      rw [lastCut?_map, firstIllegal?_append closed legal, ih]
  | unterminated free =>
      rw [firstIllegal?, (Text.marked_quote free).1]
      rfl
  | @illegal c cs notQuote isIllegal =>
      have same : (c == '"') = false := beq_eq_false_iff_ne.2 notQuote
      have first : Text.outside (c :: cs) = c :: Text.outside cs := by
        simp [Text.outside, Text.marked, same]
      rw [firstIllegal?, first, List.find?_cons_of_pos (by simpa using isIllegal)]
      rfl

/-- The tokens of a cut, written one after the other, are the text without the separators outside of quoted
    text, with the quote added that is missing at the end. -/
theorem texts (h : Cuts cs r) {ts : List Token} (done : r = .ok ts) :
    ts.flatMap (·.text.toList) = Text.squeezed cs ++ Text.missingQuote cs := by
  induction h generalizing ts with
  | nil =>
      cases done
      rfl
  | @space c cs r isSpace later ih =>
      obtain ⟨_, squeezed, closed⟩ := marked_space isSpace
      rw [← List.singleton_append, Text.squeezed_append closed, Text.missingQuote_append closed, squeezed]
      exact ih done
  | @token t cs r plain whole later ih =>
      obtain ⟨_, squeezed, closed⟩ := outside_of_plain plain
      obtain ⟨others, rest, rfl⟩ := map_eq_ok.1 done
      rw [Text.squeezed_append closed, Text.missingQuote_append closed, squeezed, List.flatMap_cons, ih rest,
        List.append_assoc]
  | @quotes s cs r free later ih =>
      obtain ⟨_, squeezed, closed⟩ := Text.marked_quotes free
      obtain ⟨others, rest, rfl⟩ := map_eq_ok.1 done
      have text : (quoted (String.ofList s)).text.toList = '"' :: s ++ ['"'] := by simp [Token.text]
      rw [Text.squeezed_append closed, Text.missingQuote_append closed, squeezed, List.flatMap_cons, ih rest,
        text, List.append_assoc ('"' :: s ++ ['"'])]
  | @unterminated s free =>
      obtain ⟨_, squeezed, opened⟩ := Text.marked_quote free
      cases done
      rw [squeezed, Text.missingQuote, opened]
      simp [Token.text]
  | illegal => cases done

end Cuts

/-- A token stands in a text: what comes before it is the tokens before it but for separators, and nothing
    that it would take in comes next. The rest is cut into the tokens after it. -/
def StandsIn (cs : List Char) (before : List Token) (t : Token) (after : List Token) : Prop :=
  ∃ front rest, cs = front ++ t.text.toList ++ rest ∧
    Text.squeezed front = before.flatMap (·.text.toList) ∧ Text.isUnterminated front = false ∧
    (∀ c ∈ rest.head?, t.absorbs c = false) ∧ Cuts rest (.ok after)

theorem StandsIn.prepend {piece cs : List Char} {before after : List Token} {t : Token} (first : List Token)
    (squeezed : Text.squeezed piece = first.flatMap (·.text.toList))
    (closed : Text.isUnterminated piece = false) (h : StandsIn cs before t after) :
    StandsIn (piece ++ cs) (first ++ before) t after := by
  obtain ⟨front, rest, rfl, texts, still, whole, later⟩ := h
  refine ⟨piece ++ front, rest, by simp only [List.append_assoc], ?_, ?_, whole, later⟩
  · rw [Text.squeezed_append closed, squeezed, texts, List.flatMap_append]
  · rw [Text.isUnterminated_append closed, still]

/-- Every word and every number of a cut stands in the text. -/
theorem Cuts.standsIn {cs : List Char} {r : Except Char (List Token)} (h : Cuts cs r)
    (before : List Token) {after : List Token} {t : Token} (done : r = .ok (before ++ t :: after))
    (goesOn : t.endsItself = false) : StandsIn cs before t after := by
  induction h generalizing before with
  | nil => cases before <;> cases done
  | @space c cs r isSpace later ih =>
      obtain ⟨_, squeezed, closed⟩ := marked_space isSpace
      exact (ih before done).prepend [] squeezed closed
  | @token u cs r plain whole later ih =>
      obtain ⟨_, squeezed, closed⟩ := outside_of_plain plain
      obtain ⟨others, rest, same⟩ := map_eq_ok.1 done
      cases before with
      | nil =>
          obtain ⟨rfl, rfl⟩ := List.cons.inj same
          rw [rest] at later
          exact ⟨[], cs, rfl, rfl, rfl, whole, later⟩
      | cons b before =>
          obtain ⟨rfl, rfl⟩ := List.cons.inj same
          exact (ih before rest).prepend [u] (by simpa using squeezed) closed
  | @quotes s cs r free later ih =>
      obtain ⟨_, squeezed, closed⟩ := Text.marked_quotes free
      obtain ⟨others, rest, same⟩ := map_eq_ok.1 done
      cases before with
      | nil =>
          obtain ⟨rfl, _⟩ := List.cons.inj same
          cases goesOn
      | cons b before =>
          obtain ⟨rfl, rfl⟩ := List.cons.inj same
          have text : Text.squeezed ('"' :: s ++ ['"']) =
              [quoted (String.ofList s)].flatMap (·.text.toList) := by
            rw [squeezed]
            simp [Token.text]
          exact (ih before rest).prepend _ text closed
  | @unterminated s free =>
      cases before with
      | nil =>
          cases done
          cases goesOn
      | cons b before => cases before <;> cases done
  | illegal => cases done

end Token

/-! ### Lines -/

namespace Line

/-- The label and the end of a line are no words, so a word between them is one of the tokens between them. -/
theorem split_written {label : Label} {body before after : List Token} {t : Token}
    (goesOn : t.endsItself = false) (split : .label label :: body ++ [.endOfLine] = before ++ t :: after) :
    ∃ front back, before = .label label :: front ∧ body = front ++ t :: back := by
  cases before with
  | nil =>
      obtain ⟨rfl, _⟩ := List.cons.inj split
      cases goesOn
  | cons b front =>
      have others : body ++ [.endOfLine] = front ++ t :: after := (List.cons.inj split).2
      obtain ⟨rfl, _⟩ := List.cons.inj split
      rcases List.eq_nil_or_concat' after with rfl | ⟨back, last, rfl⟩
      · obtain ⟨rfl, _⟩ := List.cons.inj (List.append_inj' others rfl).2
        cases goesOn
      · rw [← List.cons_append, ← List.append_assoc] at others
        exact ⟨front, back, rfl, (List.append_inj' others rfl).1⟩

/-- A label is written with plain characters. -/
theorem label_plain {label : List Char} (field : Label.isField label = true) :
    ∀ c ∈ label, Token.isPlain c = true := by
  intro c mem
  have digit := (digits_of_isField field).2 c mem
  exact Token.isPlain_of_isAlphanum ((Text.isAlphanum_iff c).2 (Or.inr digit))

/-- A scan that ends early is reported under the first field. -/
theorem scan_of_error {line : List Char} {c : Char}
    (field : Label.isField (line.takeWhile isFieldChar) = true)
    (stopped : Token.scan (line.dropWhile isFieldChar) = .error c) :
    scan line = .error
      { code := .illegalCharacter
        label := some (String.ofList (line.takeWhile isFieldChar))
        detail := "'" ++ c.toString ++ "' IN " ++ String.ofList line } := by
  simp only [scan, field, stopped, if_true]

/-- Take a line whose first field is a label. If every character after it and outside of quoted text may
    stand there, the line is cut into tokens. These, written one after the other, are the line without the
    separators outside of quoted text, with the quote added that is missing at the end; and where a word or a
    number stands in the line, nothing comes next that it would take in. Otherwise the report, under the first
    field, names the first character that may not stand where it does. -/
theorem characters_accounted_for (s : String) (field : Label.isField (firstField s) = true) :
    ((∀ c ∈ Text.outside (afterField s), Token.isLegal c = true) →
      ∃ written, scan (normalize s) = .ok (String.ofList (firstField s), written) ∧
        written.flatMap (·.text.toList) = Text.squeezed (normalize s) ++ Text.missingQuote (normalize s) ∧
        ∀ before t after, written = before ++ t :: after → t.endsItself = false →
          ∃ front rest, normalize s = front ++ t.text.toList ++ rest ∧
            Text.squeezed front = before.flatMap (·.text.toList) ∧ Text.isUnterminated front = false ∧
            ∀ c ∈ rest.head?, t.absorbs c = false) ∧
    ∀ c, (Text.outside (afterField s)).find? (fun c => !Token.isLegal c) = some c →
      tokenize s = .error
        { code := .illegalCharacter
          label := some (String.ofList (firstField s))
          detail := "'" ++ c.toString ++ "' IN " ++ String.ofList (normalize s) } := by
  have whole : normalize s = firstField s ++ afterField s := List.takeWhile_append_dropWhile.symm
  have cuts := Token.scan_cuts (afterField s)
  have ends := cuts.ends_at_firstIllegal
  constructor
  · intro legal
    obtain ⟨_, squeezed, closed⟩ := Token.outside_of_plain (label_plain field)
    obtain ⟨body, scanned⟩ : ∃ body, Token.scan (afterField s) = .ok body := by
      cases outcome : Token.scan (afterField s) with
      | ok body => exact ⟨body, rfl⟩
      | error c =>
          rw [outcome] at ends
          have illegal := List.find?_some ends.symm
          rw [legal c (List.mem_of_find?_eq_some ends.symm)] at illegal
          cases illegal
    refine ⟨_, scan_eq_ok.2 ⟨field, body, scanned, rfl, rfl⟩, ?_, ?_⟩
    · rw [whole, Text.squeezed_append closed, Text.missingQuote_append closed, squeezed, List.append_assoc,
        ← cuts.texts scanned]
      simp [Token.text]
    · intro before t after split goesOn
      obtain ⟨front, back, rfl, rfl⟩ := split_written goesOn split
      have stands := (cuts.standsIn front scanned goesOn).prepend [.label (String.ofList (firstField s))]
        (by simpa [Token.text] using squeezed) closed
      rw [← whole] at stands
      obtain ⟨front, rest, cut, texts, still, stops, _⟩ := stands
      exact ⟨front, rest, cut, texts, still, stops⟩
  · intro c found
    have stopped : Token.scan (afterField s) = .error c := by
      cases outcome : Token.scan (afterField s) with
      | ok body =>
          rw [outcome] at ends
          cases ends.trans found
      | error d =>
          rw [outcome] at ends
          cases ends.trans found
          rfl
    exact bind_eq_error.2 (Or.inl (scan_of_error field stopped))

/-- A word that a point ends, a number that a letter ends, and quoted text without an end, the separators in
    which stay; and a line in which the quoted character that comes first is none of its faults. -/
theorem characters_accounted_for_samples :
    (∃ written, scan (normalize "10 print a.5b , \"it's  7") = .ok ("10", written) ∧
      written.flatMap (·.text.toList) = "10PRINTA.5B,\"IT'S  7\"".toList) ∧
    tokenize "10 print \"#\" & #" =
      .error { code := .illegalCharacter, label := some "10", detail := "'&' IN 10 PRINT \"#\" & #" } := by
  constructor
  · obtain ⟨legal, _⟩ := characters_accounted_for "10 print a.5b , \"it's  7" (by decide +kernel)
    obtain ⟨written, scanned, texts, _⟩ := legal (List.all_eq_true.1 (by decide +kernel))
    refine ⟨written, scanned, texts.trans ?_⟩
    decide +kernel
  · obtain ⟨_, illegal⟩ := characters_accounted_for "10 print \"#\" & #" (by decide +kernel)
    exact illegal '&' (by decide +kernel)

end Line

end Plotline

/-
Module: Plotline.Proofs.LineStatements
Layer: Proofs
Purpose: How many statements a line has. Every command starts with its word and has no other one, so a line
  that is read has one statement for each command word in it (`Grammar.Items.length_eq`). The check of shapes
  counts the tokens after some command words, and a line that starts with one of these has a single statement
  (`Grammar.Cmd.fills_line`). Elsewhere a line may have several of them; and a line that is a label alone has
  none, and its label can be no target of a jump.
Main exports: Token.isWord, Grammar.Items.length_eq, Shape.isMeasured, Grammar.Cmd.fills_line,
  Program.exists_addressOf, Listing.loadLine_read, Listing.words_are_statements
-/
import Plotline.Proofs.LabelIndex
import Plotline.Proofs.ListingLines

namespace Plotline

/-- The token is a command word. -/
def Token.isWord : Token → Bool
  | .word _ => true
  | _ => false

/-! ### One statement for each command word -/

namespace Grammar

theorem isWord_of_continues {t : Token} (h : continuesCommand t = true) : t.isWord = false := by
  cases t with
  | word => cases h
  | _ => rfl

theorem Cmd.countP_isWord {ts : List Token} {c : Command} (h : Cmd ts c) : ts.countP Token.isWord = 1 := by
  rcases h.starts with ⟨word, us, rfl, continues⟩
  have others : us.countP Token.isWord = 0 := by
    apply List.countP_eq_zero.2
    intro t mem
    rw [isWord_of_continues (continues t mem)]
    simp
  rw [List.countP_cons_of_pos rfl, others]

/-- Labels and commands say as many statements as there are command words. -/
theorem Items.length_eq {current : Option Label} {r last : Region} {ts : List Token}
    {statements : List Statement} (h : Items current r ts statements last) :
    statements.length = ts.countP Token.isWord := by
  induction h with
  | nil => rfl
  | label current l more ih => rw [ih, List.countP_cons_of_neg (by simp [Token.isWord])]
  | command head moves more ih =>
      rw [List.length_cons, ih, List.countP_append, head.countP_isWord, Nat.add_comm]

/-- Under a label, tokens that are no labels start with a command. -/
theorem Items.first_command {l : Label} {r last : Region} {ts : List Token} {statements : List Statement}
    (h : Items (some l) r ts statements last) (noLabel : ∀ other, .label other ∉ ts) (nonempty : ts ≠ []) :
    ∃ us rest c more r', ts = us ++ rest ∧ Cmd us c ∧ statements = ⟨l, c⟩ :: more ∧
      Items (some l) r' rest more last := by
  cases h with
  | nil => exact absurd rfl nonempty
  | label _ other => exact absurd List.mem_cons_self (noLabel other)
  | command head _ more => exact ⟨_, _, _, _, _, rfl, head, rfl, more⟩

theorem Items.of_nil {current : Option Label} {r last : Region} {statements : List Statement}
    (h : Items current r [] statements last) : statements = [] ∧ last = r :=
  h.unique (.nil current r)

/-- So they say nothing only if there are none. -/
theorem Items.eq_nil_iff {l : Label} {r last : Region} {ts : List Token} {statements : List Statement}
    (h : Items (some l) r ts statements last) (noLabel : ∀ other, .label other ∉ ts) :
    statements = [] ↔ ts = [] := by
  constructor
  · intro none
    by_contra nonempty
    rcases h.first_command noLabel nonempty with ⟨_, _, _, _, _, _, _, some, _⟩
    rw [none] at some
    cases some
  · rintro rfl
    exact h.of_nil.1

end Grammar

/-! ### Lines whose tokens are counted -/

namespace Shape

/-- The check of shapes compares the number of tokens of a line that starts like this. -/
def isMeasured : List Token → Bool
  | .word .dim :: _ | .word .halt :: _ | .word .goto :: _ | .word .branch :: _ | .word .input :: _ => true
  | .word .draw :: phase :: _ => phase.isNamed "FINISH"
  | _ => false

theorem length_of_require {α : Type} {flaw : Flaw} {tokens : List Token} {n : Nat} {f : Unit → Check α}
    {a : α} (h : (require flaw (tokens.length == n) >>= f) = .ok a) : tokens.length = n := by
  rcases bind_eq_ok.1 h with ⟨_, counted, _⟩
  exact beq_iff_eq.1 (require_eq_ok.1 counted)

/-- The first THEN stands no later than any other one. -/
theorem findIdx?_then_le {front rest : List Token} {place : Nat}
    (found : (front ++ .name "THEN" :: rest).findIdx? (Token.isNamed "THEN") = some place) :
    place ≤ front.length := by
  have here : (Token.name "THEN" :: rest).findIdx? (Token.isNamed "THEN") = some 0 := rfl
  rw [List.findIdx?_append, here] at found
  cases inFront : front.findIdx? (Token.isNamed "THEN") with
  | none =>
      rw [inFront] at found
      simp at found
      omega
  | some first =>
      rw [inFront] at found
      cases found
      exact Nat.le_of_lt (List.findIdx?_eq_some_iff_findIdx_eq.1 inFront).1

/-- A conditional jump ends one token after its first THEN, so nothing is left after any other one. -/
theorem rest_of_checkBranch (front : List Token) (target : Token) (rest : List Token)
    (h : checkBranch (front ++ .name "THEN" :: target :: (rest ++ [.endOfLine])) = .ok ()) : rest = [] := by
  unfold checkBranch at h
  split at h
  · cases h
  · rename_i place found
    rcases bind_eq_ok.1 h with ⟨_, _, continued⟩
    rcases bind_eq_ok.1 continued with ⟨_, _, ending⟩
    have early := findIdx?_then_le found
    have length := length_of_require ending
    simp at length
    apply List.eq_nil_of_length_eq_zero
    omega

theorem length_of_checkDraw {rest : List Token}
    (h : checkDraw (.word .draw :: .name "FINISH" :: rest) = .ok ()) : rest.length = 1 := by
  have counted : (Token.word .draw :: .name "FINISH" :: rest).length = 3 :=
    beq_iff_eq.1 (require_eq_ok.1 h)
  simpa using counted

end Shape

namespace Grammar

/-- Where the tokens are counted, a command fills its line. -/
theorem Cmd.fills_line {ts rest : List Token} {c : Command} (h : Cmd ts c)
    (measured : Shape.isMeasured (ts ++ rest) = true)
    (shape : Shape.check (ts ++ rest ++ [.endOfLine]) = .ok ()) : rest = [] := by
  cases h with
  | dim | goto | input =>
      rcases Shape.checkWord_of_check shape with ⟨_, passed⟩
      simpa using Shape.length_of_require passed
  | halt =>
      rcases Shape.checkWord_of_check shape with ⟨_, passed⟩
      have counted := beq_iff_eq.1 (Shape.require_eq_ok.1 passed)
      simpa using counted
  | drawFinish =>
      rcases Shape.checkWord_of_check shape with ⟨_, passed⟩
      simpa using Shape.length_of_checkDraw passed
  | @branch ts us lhs rhs op comparison text left sign right digits =>
      rcases Shape.checkWord_of_check shape with ⟨_, passed⟩
      apply Shape.rest_of_checkBranch (.word .branch :: (ts ++ .operator op :: us)) (.number text) rest
      simpa [Shape.checkWord] using passed
  | drawStart | assign | print | printText | line | plot | rectangle => cases measured

theorem Items.length_of_measured {l : Label} {r last : Region} {ts : List Token}
    {statements : List Statement} (h : Items (some l) r ts statements last)
    (noLabel : ∀ other, .label other ∉ ts) (measured : Shape.isMeasured ts = true)
    (shape : Shape.check (ts ++ [.endOfLine]) = .ok ()) : statements.length = 1 := by
  have nonempty : ts ≠ [] := by
    rintro rfl
    cases measured
  rcases h.first_command noLabel nonempty with ⟨us, rest, c, more, r', rfl, command, all, others⟩
  rcases command.fills_line measured shape with rfl
  rw [all, others.of_nil.1, List.length_singleton]

end Grammar

/-! ### Lines that are read -/

namespace Program

/-- A label is a target of jumps exactly if some statement carries it. -/
theorem exists_addressOf {statements : List Statement} {label : Label} :
    (∃ address, (ofStatements statements).addressOf label = .ok address) ↔
      ∃ s ∈ statements, s.label = label := by
  have scanned : (∃ address, statements.findIdx? (isAt label) = some address) ↔
      statements.any (isAt label) = true := by
    rw [← List.findIdx?_isSome, Option.isSome_iff_exists]
  simp only [addressOf_ofStatements]
  rw [scanned]
  simp [isAt]

/-- Among other statements, those of a label make it a target of jumps unless there are none of them. -/
theorem exists_addressOf_append {before statements after : List Statement} {label : Label}
    (labels : ∀ s ∈ statements, s.label = label) :
    (∃ address, (ofStatements (before ++ statements ++ after)).addressOf label = .ok address) ↔
      statements ≠ [] ∨ ∃ s ∈ before ++ after, s.label = label := by
  rw [exists_addressOf]
  constructor
  · rintro ⟨s, mem, named⟩
    rw [List.append_assoc, List.mem_append, List.mem_append] at mem
    rcases mem with earlier | here | later
    · exact Or.inr ⟨s, List.mem_append_left _ earlier, named⟩
    · exact Or.inl (List.ne_nil_of_mem here)
    · exact Or.inr ⟨s, List.mem_append_right _ later, named⟩
  · rintro (nonempty | ⟨s, mem, named⟩)
    · rcases List.exists_mem_of_ne_nil _ nonempty with ⟨s, mem⟩
      exact ⟨s, List.mem_append_left _ (List.mem_append_right _ mem), labels s mem⟩
    · refine ⟨s, ?_, named⟩
      rw [List.append_assoc, List.mem_append, List.mem_append]
      exact (List.mem_append.1 mem).imp_right Or.inr

end Program

namespace Listing

/-- A line that is read, and is neither blank nor a remark, is its first field as a label and tokens that pass
    the check of their shape and say the statements it adds. -/
theorem loadLine_read {l next : Listing} {text : String} (occupied : Reading.isIdle text = false)
    (loaded : l.loadLine text = .ok next) :
    ∃ (body : List Token) (last : Region),
      Line.tokenize text = .ok (.label (String.ofList (Line.firstField text)) :: body ++ [.endOfLine]) ∧
      (∀ other, .label other ∉ body) ∧ Shape.check (body ++ [.endOfLine]) = .ok () ∧
      Grammar.Items (some (String.ofList (Line.firstField text))) l.region body (gained (l, text)) last ∧
      (last = l.region → next = { l with statements := l.statements ++ gained (l, text) }) := by
  have sound := Reading.ofLine_sound l.region text
  unfold loadLine at loaded
  unfold gained
  cases reading : Reading.ofLine l.region text with
  | skipped =>
      rw [reading, occupied] at sound
      cases sound
  | illegible | rejected =>
      rw [reading] at loaded
      cases loaded
  | accepted line statements last =>
      rw [reading] at loaded sound
      cases loaded
      rcases sound with ⟨cut, read⟩
      rcases Line.ofText_ok cut with ⟨named, tokenized⟩
      rcases Reading.line_tokens cut with ⟨body, tokens, written, shape⟩
      rw [tokens] at tokenized read
      rw [← named]
      refine ⟨body, last, tokenized, fun _ mem => written _ mem, shape, ?_, fun same => ?_⟩
      · have inLine : .endOfLine ∉ Token.label line.label :: body := by
          intro mem
          rcases List.mem_cons.1 mem with same | mem
          · cases same
          · exact written _ mem
        have ends : Grammar.IsEnd [.endOfLine] := rfl
        have items := Grammar.parseAll_eq_ok.1 read
        rw [Grammar.untilEnd_append inLine ends] at items
        cases items with
        | label _ _ items => exact items
      · rw [if_pos same, same]

/-- A line that is read, and is neither blank nor a remark, has one statement for each command word in it, all
    of them under its label. So it has none exactly if it is a label alone, and leaves the listing as it was;
    and it has a single one if its tokens are counted. Its label is a target of jumps, whatever statements
    follow, exactly if it is more than a label or another statement carries the same one. -/
theorem words_are_statements {l next : Listing} {text : String} (occupied : Reading.isIdle text = false)
    (loaded : l.loadLine text = .ok next) :
    ∃ (body : List Token) (statements : List Statement),
      Line.tokenize text = .ok (.label (String.ofList (Line.firstField text)) :: body ++ [.endOfLine]) ∧
      next.statements = l.statements ++ statements ∧
      (∀ s ∈ statements, s.label = String.ofList (Line.firstField text)) ∧
      statements.length = body.countP Token.isWord ∧
      (statements = [] ↔ body = []) ∧ (body = [] → next = l) ∧
      (Shape.isMeasured body = true → statements.length = 1) ∧
      ∀ more, (∃ address, (Program.ofStatements (next.statements ++ more)).addressOf
          (String.ofList (Line.firstField text)) = .ok address) ↔
        body ≠ [] ∨ ∃ s ∈ l.statements ++ more, s.label = String.ofList (Line.firstField text) := by
  rcases loadLine_read occupied loaded with ⟨body, last, tokenized, noLabel, shape, items, same⟩
  have added := (loadLine_ok loaded).1
  have labels : ∀ s ∈ gained (l, text), s.label = String.ofList (Line.firstField text) :=
    gained_labels (l, text)
  have none := items.eq_nil_iff noLabel
  refine ⟨body, gained (l, text), tokenized, added, labels, items.length_eq, none, ?_, ?_, ?_⟩
  · rintro rfl
    rcases items.of_nil with ⟨empty, unmoved⟩
    rw [same unmoved, empty, List.append_nil]
  · intro measured
    exact items.length_of_measured noLabel measured shape
  · intro more
    rw [added, Program.exists_addressOf_append labels, Ne, none]

/-- A line with two statements. -/
def crowded : String :=
  "10 PRINT 1 PRINT 2"

theorem words_are_statements_crowded :
    Reading.isIdle crowded = false ∧ ∃ next body statements, loadLine {} crowded = .ok next ∧
      Line.tokenize crowded = .ok (.label (String.ofList (Line.firstField crowded)) :: body ++ [.endOfLine]) ∧
      next.statements = statements ∧ statements.length = body.countP Token.isWord ∧
      ∃ address, (Program.ofStatements (next.statements ++ [])).addressOf
        (String.ofList (Line.firstField crowded)) = .ok address := by
  have occupied : Reading.isIdle crowded = false := by decide +kernel
  have read : isReadable ({}, crowded) = true := by decide +kernel
  refine ⟨occupied, ?_⟩
  cases loaded : loadLine {} crowded with
  | error problem =>
      rw [isReadable, loaded] at read
      cases read
  | ok next =>
      rcases words_are_statements occupied loaded with
        ⟨body, statements, tokenized, added, _, counted, _, _, _, target⟩
      have nonempty : body ≠ [] := by
        rintro rfl
        exact absurd tokenized (by decide +kernel)
      exact ⟨next, body, statements, rfl, tokenized, added, counted, (target []).2 (Or.inl nonempty)⟩

/-- Two lines that are read: the first has two statements, and the second has none, so that its label is no
    target of jumps. -/
theorem lines_without_one_statement :
    (Reading.isIdle crowded = false ∧
      (loadLine {} crowded).toOption.map (fun next => next.statements.length) = some 2) ∧
    Reading.isIdle "20" = false ∧
      ∃ next, loadLine {} "20" = .ok next ∧ next.statements = [] ∧
        ∀ address, (Program.ofStatements next.statements).addressOf "20" ≠ .ok address := by
  have empty : (loadLine {} "20").toOption.map (fun next => next.statements.length) = some 0 := by
    decide +kernel
  refine ⟨by decide +kernel, by decide +kernel, ?_⟩
  cases loaded : loadLine {} "20" with
  | error =>
      rw [loaded] at empty
      cases empty
  | ok next =>
      rw [loaded] at empty
      have none : next.statements = [] := List.eq_nil_of_length_eq_zero (Option.some.inj empty)
      refine ⟨next, rfl, none, fun address found => ?_⟩
      rcases Program.exists_addressOf.1 ⟨address, found⟩ with ⟨s, mem, _⟩
      rw [none] at mem
      cases mem

end Listing

end Plotline

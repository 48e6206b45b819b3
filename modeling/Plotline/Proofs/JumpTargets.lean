/-
Module: Plotline.Proofs.JumpTargets
Layer: Proofs
Purpose: Where jumps go. `Program.IsFirst` says, without the index, which address a label stands for: the
  smallest one whose statement carries it. Looking a label up finds this address, and fails exactly if there
  is none. A jump that is taken goes there; a conditional jump that is not taken looks nothing up. The label
  that a jump names is the number in digits that stands behind its own word in the source line, after the
  tokens of the statements before it (`Line.Names`), and the label of a statement is the first field of its
  line. The tokens of a jump are found in the line although signs were replaced around and within them
  (`Token.phrase_of_expandFrom`).
Main exports: Program.IsFirst, Program.addressOf_eq_ok, Program.addressOf_eq_error, Token.PairStandsIn,
  Token.phrase_of_expandFrom, Grammar.Items.split, Line.Names, Listing.targets_written, Machine.JumpsTo,
  Machine.jumps_go_to_first
-/
import Plotline.Proofs.ListingRegion
import Plotline.Proofs.StatementEffects
import Plotline.Proofs.TokenCuts

namespace Plotline

/-! ### The first statement with a label -/

namespace Program

/-- The statement at the address carries the label, and no statement before it does. -/
def IsFirst (p : Program) (label : Label) (address : Nat) : Prop :=
  (∃ s, p.statement? address = some s ∧ s.label = label) ∧
  ∀ earlier < address, ∀ s, p.statement? earlier = some s → s.label ≠ label

variable {statements : List Statement} {label : Label}

/-- Looking a label up gives the smallest address whose statement carries it. -/
theorem addressOf_eq_ok {address : Nat} :
    (ofStatements statements).addressOf label = .ok address ↔
      (ofStatements statements).IsFirst label address := by
  simp only [addressOf_ofStatements, List.findIdx?_eq_some_iff_getElem, IsFirst,
    statement?_ofStatements, isAt, beq_iff_eq, List.getElem?_eq_some_iff]
  constructor
  · rintro ⟨inside, here, before⟩
    refine ⟨⟨_, ⟨inside, rfl⟩, here⟩, ?_⟩
    rintro earlier less s ⟨_, rfl⟩
    exact before earlier less
  · rintro ⟨⟨_, ⟨inside, rfl⟩, here⟩, before⟩
    exact ⟨inside, here, fun earlier less => before earlier less _ ⟨Nat.lt_trans less inside, rfl⟩⟩

/-- Looking a label up fails exactly if no statement carries it. -/
theorem addressOf_eq_error {problem : Diagnostic} :
    (ofStatements statements).addressOf label = .error problem ↔
      problem = { code := .undefinedLine, detail := label } ∧ ∀ s ∈ statements, s.label ≠ label := by
  have nowhere : statements.findIdx? (isAt label) = none ↔ ∀ s ∈ statements, s.label ≠ label := by
    simp [List.findIdx?_eq_none_iff, isAt]
  rw [← nowhere, addressOf, index_ofStatements]
  cases statements.findIdx? (isAt label) with
  | some address => simp
  | none => simp [eq_comm]

end Program

/-! ### Tokens where they are written -/

namespace Token

/-- A word with a number after it stands in a text behind some tokens. What the text has before the word is
    these tokens but for separators, and no quoted text is open there; nothing but spaces stands between the
    word and the number, and the number goes on no further. -/
def PairStandsIn (cs : List Char) (ahead : List Token) (word : Token) (number : String) : Prop :=
  ∃ before gap rest, cs = before ++ word.text.toList ++ gap ++ number.toList ++ rest ∧
    Text.squeezed before = ahead.flatMap (·.text.toList) ∧ Text.isUnterminated before = false ∧
    (∀ c ∈ gap, Text.isSpace c = true) ∧ ∀ c ∈ rest.head?, isNumeral c = false

/-- A word and a number that come of a text one after the other stand in it together. -/
theorem scan_pair {cs : List Char} {ahead back : List Token} {word : Token} {number : String}
    (isWord : word.endsItself = false)
    (scanned : scan cs = .ok (ahead ++ word :: .number number :: back)) :
    PairStandsIn cs ahead word number := by
  obtain ⟨before, left, rfl, squeezed, closed, _, later⟩ := (scan_cuts cs).standsIn ahead scanned isWord
  obtain ⟨gap, rest, rfl, nothing, _, stops, _⟩ := later.standsIn [] rfl rfl
  exact ⟨before, gap, rest, by simp [Token.text], squeezed, closed, Text.isSpace_of_squeezed nothing, stops⟩

/-- The tokens of a sign start with a parenthesis, so a number in front was written there. -/
theorem number_of_expandFrom {s : String} {signHere : Bool} {written back : List Token}
    (split : expandFrom signHere written = number s :: back) : ∃ rest, written = number s :: rest := by
  cases written with
  | nil => cases split
  | cons t rest =>
      rw [expandFrom] at split
      split at split
      · cases split
      · obtain ⟨rfl, _⟩ := List.cons.inj split
        exact ⟨rest, rfl⟩

/-- A token that no sign is replaced by was written where it comes, and parts what was written before it from
    what was written after it. -/
theorem split_of_expandFrom {t : Token} (outside : t ∉ signTokens) {signHere : Bool}
    {written front back : List Token} (split : expandFrom signHere written = front ++ t :: back) :
    ∃ before after, written = before ++ t :: after ∧ expandFrom signHere before = front ∧
      expandFrom t.precedesSign after = back := by
  induction written generalizing signHere front with
  | nil => cases front <;> cases split
  | cons u rest ih =>
      rw [expandFrom] at split
      by_cases sign : (signHere && u == operator .minus) = true
      · rw [if_pos sign] at split
        have passed : ∃ later, front = signTokens ++ later ∧
            expandFrom u.precedesSign rest = later ++ t :: back := by
          rcases List.append_eq_append_iff.1 split with ⟨later, isFront, isRest⟩ | ⟨left, isSign, isRest⟩
          · exact ⟨later, isFront, isRest⟩
          · cases left with
            | nil => exact ⟨[], by simpa using isSign.symm, isRest.symm⟩
            | cons first left =>
                obtain ⟨rfl, _⟩ := List.cons.inj isRest
                exact absurd (isSign ▸ List.mem_append_right front List.mem_cons_self) outside
        obtain ⟨later, rfl, isRest⟩ := passed
        obtain ⟨before, after, rfl, rfl, isBack⟩ := ih isRest
        exact ⟨u :: before, after, rfl, by rw [expandFrom, if_pos sign], isBack⟩
      · rw [if_neg sign, List.singleton_append] at split
        cases front with
        | nil =>
            obtain ⟨rfl, isBack⟩ := List.cons.inj split
            exact ⟨[], rest, rfl, rfl, isBack⟩
        | cons first front =>
            obtain ⟨rfl, isRest⟩ := List.cons.inj split
            obtain ⟨before, after, rfl, rfl, isBack⟩ := ih isRest
            exact ⟨u :: before, after, rfl, by rw [expandFrom, if_neg sign, List.singleton_append], isBack⟩

/-- The tokens of a jump were written where they come. They start with a word, so that what is replaced in
    them is replaced whatever stands in front. -/
theorem phrase_of_expandFrom {word : Token} (outside : word ∉ signTokens) {target : String}
    {body front opening back : List Token} (opens : opening = [] ∨ ∃ us, opening = .word .branch :: us)
    (split : expandFrom true (body ++ [endOfLine]) = front ++ opening ++ word :: number target :: back) :
    ∃ first second rest, body = first ++ second ++ word :: number target :: rest ∧
      expandFrom true first = front ∧
      expandSigns (second ++ [word, number target]) = opening ++ [word, number target] := by
  have noMinus : word ≠ operator .minus := by
    rintro rfl
    exact outside (by decide)
  obtain ⟨ahead, after, written, replaced, follows⟩ := split_of_expandFrom outside split
  obtain ⟨rest, rfl⟩ := number_of_expandFrom follows
  have ends : ∃ left, body = ahead ++ word :: number target :: left := by
    rcases List.eq_nil_or_concat rest with rfl | ⟨left, last, rfl⟩
    · have lasts := congrArg List.getLast? written
      simp at lasts
    · have whole : body ++ [endOfLine] = (ahead ++ word :: number target :: left) ++ [last] := by
        rw [written]
        simp
      exact ⟨left, (List.append_inj' whole rfl).1⟩
  obtain ⟨left, rfl⟩ := ends
  have phrase (written : List Token) : expandSigns (written ++ [word, number target]) =
      expandFrom false written ++ [word, number target] := by
    rw [expandSigns_eq, expandFrom_append_cons noMinus]
    simp [expandFrom]
  rcases opens with rfl | ⟨us, rfl⟩
  · exact ⟨ahead, [], left, by simp, by simpa using replaced, phrase []⟩
  · obtain ⟨first, second, rfl, isFront, rfl⟩ := split_of_expandFrom (by decide) replaced
    exact ⟨first, .word .branch :: second, left, by simp, isFront, phrase _⟩

end Token

/-! ### Targets where they are written -/

/-- The word after which a command names the label it jumps to, and the label. -/
def Command.jump? : Command → Option (Token × Label)
  | .goto target => some (.word .goto, target)
  | .branch _ _ _ target => some (.name "THEN", target)
  | _ => none

theorem Command.jump?_word {c : Command} {word : Token} {target : Label}
    (jump : c.jump? = some (word, target)) : word = .word .goto ∨ word = .name "THEN" := by
  cases c with
  | goto =>
      cases jump
      exact Or.inl rfl
  | branch =>
      cases jump
      exact Or.inr rfl
  | _ => cases jump

namespace Grammar

/-- Each of the statements is said by tokens of its own, and the tokens in front of them say the statements
    before it. -/
theorem Items.split {current : Option Label} {r last : Region} {ts : List Token}
    {earlier later : List Statement} {s : Statement} (items : Items current r ts (earlier ++ s :: later) last) :
    ∃ front own back between, ts = front ++ own ++ back ∧ Items current r front earlier between ∧
      Cmd own s.command := by
  generalize whole : earlier ++ s :: later = statements at items
  induction items generalizing earlier with
  | nil => cases earlier <;> cases whole
  | label current l _ ih =>
      obtain ⟨front, own, back, between, rfl, before, phrase⟩ := ih whole
      exact ⟨.label l :: front, own, back, between, rfl, .label current l before, phrase⟩
  | @command l r r' last ts us c statements head moves more ih =>
      cases earlier with
      | nil =>
          obtain ⟨rfl, _⟩ := List.cons.inj whole
          exact ⟨[], ts, us, r, rfl, .nil _ r, head⟩
      | cons first earlier =>
          obtain ⟨rfl, rest⟩ := List.cons.inj whole
          obtain ⟨front, own, back, between, rfl, before, phrase⟩ := ih rest
          exact ⟨ts ++ front, own, back, between, by simp, .command head moves before, phrase⟩

/-- The tokens of a jump end with its word and its target, which is written in digits. Others stand in front
    of these two only if a condition does. -/
theorem Cmd.jump_phrase {ts : List Token} {c : Command} (phrase : Cmd ts c) {word : Token} {target : Label}
    (jump : c.jump? = some (word, target)) :
    ∃ opening, ts = opening ++ [word, .number target] ∧ target.toList.all Char.isDigit = true ∧
      (opening = [] ∨ ∃ us, opening = .word .branch :: us) := by
  cases phrase with
  | goto digits =>
      cases jump
      exact ⟨[], rfl, digits, Or.inl rfl⟩
  | @branch ts us _ _ op _ _ left sign right digits =>
      cases jump
      exact ⟨.word .branch :: (ts ++ .operator op :: us), by simp, digits, Or.inr ⟨_, rfl⟩⟩
  | _ => cases jump

end Grammar

/-- Where a jump is written in the text of a line after its label. The text is cut into tokens; those in front
    say, together with the label, the statements before the jump, and the tokens of the jump say the jump. The
    last two of these are a word and the number that is the target. The number is written in digits, one at
    least, and stands in the text behind the word and all tokens before it. -/
def Line.Names (cs : List Char) (region : Region) (earlier : List Statement) (s : Statement) (word : Token)
    (target : Label) : Prop :=
  ∃ front opening back between,
    Token.scan cs = .ok (front ++ opening ++ word :: .number target :: back) ∧
    Grammar.Items none region (Token.expandSigns (.label s.label :: front)) earlier between ∧
    Grammar.Cmd (Token.expandSigns (opening ++ [word, .number target])) s.command ∧
    Label.isField target.toList = true ∧
    Token.PairStandsIn cs (front ++ opening) word target

/-- A jump among the statements that a line is read as is written in it. -/
theorem Line.names_of_items {text : String} {region last : Region} {earlier later : List Statement}
    {s : Statement} {us rest : List Token} (cut : tokenize text = .ok (us ++ rest))
    (items : Grammar.Items none region us (earlier ++ s :: later) last)
    (labelled : s.label = String.ofList (firstField text)) {word : Token} {target : Label}
    (jump : s.command.jump? = some (word, target)) :
    Names (afterField text) region earlier s word target := by
  obtain ⟨_, body, scanned, _, tokens⟩ := tokenize_eq_ok.1 cut
  obtain ⟨front, own, back, between, rfl, before, phrase⟩ := items.split
  obtain ⟨opening, rfl, digits, opens⟩ := phrase.jump_phrase jump
  have isWord : word.endsItself = false ∧ word ∉ Token.signTokens ∧ ∀ l, word ≠ .label l := by
    rcases Command.jump?_word jump with rfl | rfl
    · exact ⟨rfl, by decide, by simp⟩
    · exact ⟨rfl, by decide, by simp⟩
  obtain ⟨front, rfl⟩ : ∃ more, front = .label (String.ofList (firstField text)) :: more := by
    cases front with
    | nil =>
        rcases opens with rfl | ⟨us, rfl⟩
        · exact absurd (List.cons.inj tokens).1 (isWord.2.2 _)
        · cases (List.cons.inj tokens).1
    | cons first more => exact ⟨more, by rw [(List.cons.inj tokens).1]⟩
  have replaced : Token.expandFrom true (body ++ [.endOfLine]) =
      front ++ opening ++ word :: .number target :: (back ++ rest) := by
    rw [Token.expandFrom_append_endOfLine]
    simpa using tokens.symm
  obtain ⟨first, second, left, rfl, isFront, isOwn⟩ :=
    Token.phrase_of_expandFrom isWord.2.1 opens replaced
  refine ⟨first, second, left, between, scanned, ?_, isOwn ▸ phrase, ?_, Token.scan_pair isWord.1 scanned⟩
  · rw [Token.expandSigns_cons, labelled]
    exact isFront ▸ before
  · have folded : Text.IsFolded (afterField text) :=
      (isFolded_normalize text).mono (List.dropWhile_suffix isFieldChar).subset
    have numerals : Token.IsNumerals target :=
      Token.scan_isWritten folded scanned (.number target) (by simp)
    have nonempty : target.toList.isEmpty = false := by simpa using numerals.nonempty
    rw [Label.isField, nonempty, digits]
    rfl

namespace Listing

/-- Every statement of a source text is one of those that a line was read as, carries the first field of the
    line, and if it is a jump, it is written in the line. -/
theorem targets_written {source : String} {s : Statement} (mem : s ∈ (load source).statements) :
    ∃ text ∈ Text.lines source, ∃ region line earlier later last,
      Reading.ofLine region text = .accepted line (earlier ++ s :: later) last ∧
      s.label = String.ofList (Line.firstField text) ∧
      ∀ word target, s.command.jump? = some (word, target) →
        Line.Names (Line.afterField text) region earlier s word target := by
  rw [load_statements] at mem
  obtain ⟨⟨l, text⟩, inSteps, mem⟩ := List.mem_flatMap.1 mem
  have labelled := gained_labels (l, text) s mem
  obtain ⟨line, last, reading⟩ := gained_accepted mem
  obtain ⟨us, rest, _, cut, items⟩ := gained_read mem
  obtain ⟨earlier, later, split⟩ := List.append_of_mem mem
  rw [split] at reading items
  exact ⟨text, mem_of_mem_steps inSteps, l.region, line, earlier, later, last, reading, labelled,
    fun word target jump => Line.names_of_items cut items labelled jump⟩

end Listing

/-! ### Jumps -/

namespace Machine

/-- The statement jumps to a label: on the machine that has moved on, the next address becomes that of the
    first statement with the label, or the report that there is none ends the program. -/
def JumpsTo (m : Machine) (s : Statement) (target : Label) (moved : Machine) : Prop :=
  (∀ address, m.program.IsFirst target address → m.step s = (none, { moved with pc := address })) ∧
  ((∀ address other, m.program.statement? address = some other → other.label ≠ target) →
    m.step s = (some (.errors [{ code := .undefinedLine, label := some s.label, detail := target }]),
      moved.abandon))

/-- A statement that is planned as a look-up of a label jumps to it. -/
theorem jumpsTo_of_planned {m : Machine} {s : Statement} {target : Label} {generator : Generator}
    (program : ∃ statements, m.program = .ofStatements statements)
    (planned : m.planned s.command = ((m.program.addressOf target).map .jump, generator)) :
    m.JumpsTo s target { m.advance with generator } := by
  obtain ⟨statements, isProgram⟩ := program
  unfold JumpsTo step
  rw [planned, isProgram]
  constructor
  · intro address first
    rw [Program.addressOf_eq_ok.2 first]
    rfl
  · intro nowhere
    have noTarget : ∀ s ∈ statements, s.label ≠ target := by
      intro other mem
      obtain ⟨address, found⟩ := List.getElem?_of_mem mem
      exact nowhere address other ((Program.statement?_ofStatements statements address).trans found)
    rw [Program.addressOf_eq_error.2 ⟨rfl, noTarget⟩]
    rfl

/-- A conditional jump whose comparison fails moves on, whatever its target. -/
theorem step_pass {m : Machine} {label target : Label} {lhs rhs : Expression} {comparison : Comparison}
    {x y : Float} {last : Generator}
    (evaluated : (Expression.values m.memory [lhs, rhs]).runFrom m.generator = (.ok [x, y], last))
    (fails : comparison.holds x y = false) :
    m.step ⟨label, .branch lhs comparison rhs target⟩ = (none, { m.advance with generator := last }) := by
  rw [step, planned_branch evaluated, fails]
  rfl

/-- The index of labels agrees with a scan of the statements, and jumps follow it. Looking a label up in any
    program gives the smallest address whose statement carries it, and fails exactly if none does. Take any
    calls on a new machine that then runs, and the statement at its address. An unconditional jump goes to the
    first statement with its label, or reports that there is none; so does a conditional jump if its comparison
    holds of the values of its operands. If the comparison fails, it moves on to the next address, and would
    do the same with any other label in its place. In a program that was read from a source text every
    statement is one of those that a line was read as, and its label is the first field of this line. A jump
    is written in the line behind the statements before it, and its target is the number in digits that
    stands there after its own word. -/
theorem jumps_go_to_first :
    (∀ statements label,
      (∀ address, (Program.ofStatements statements).addressOf label = .ok address ↔
        (Program.ofStatements statements).IsFirst label address) ∧
      ∀ problem, (Program.ofStatements statements).addressOf label = .error problem ↔
        problem = { code := .undefinedLine, detail := label } ∧ ∀ s ∈ statements, s.label ≠ label) ∧
    (∀ generator calls s,
      let m := (new generator).after calls
      m.state = .running → m.program.statement? m.pc = some s →
      (m.pending = [] → m.execute 1 = ((m.step s).1.getD .running, (m.step s).2)) ∧
      (∀ target, s.command = .goto target → m.JumpsTo s target m.advance) ∧
      ∀ lhs comparison rhs target, s.command = .branch lhs comparison rhs target →
        ∀ x y last, (Expression.values m.memory [lhs, rhs]).runFrom m.generator = (.ok [x, y], last) →
          (comparison.holds x y = true → m.JumpsTo s target { m.advance with generator := last }) ∧
          (comparison.holds x y = false →
            m.step s = (none, { m.advance with generator := last }) ∧
            ∀ other, m.step ⟨s.label, .branch lhs comparison rhs other⟩ = m.step s)) ∧
    ∀ source, ∀ s ∈ (Listing.load source).statements,
      ∃ text ∈ Text.lines source, ∃ region line earlier later last,
        Reading.ofLine region text = .accepted line (earlier ++ s :: later) last ∧
        s.label = String.ofList (Line.firstField text) ∧
        (∀ target, s.command = .goto target →
          Line.Names (Line.afterField text) region earlier s (.word .goto) target) ∧
        ∀ lhs comparison rhs target, s.command = .branch lhs comparison rhs target →
          Line.Names (Line.afterField text) region earlier s (.name "THEN") target := by
  refine ⟨fun statements label => ⟨fun _ => Program.addressOf_eq_ok, fun _ => Program.addressOf_eq_error⟩,
    ?_, ?_⟩
  · intro generator calls s m running found
    have program := ((IsSound.new generator).calls calls).program
    refine ⟨fun nothing => IsReady.execute_one ⟨nothing, running⟩ found, ?_, ?_⟩
    · intro target isGoto
      have planned := planned_goto m target
      rw [← isGoto] at planned
      exact jumpsTo_of_planned program planned
    · intro lhs comparison rhs target isBranch x y last evaluated
      constructor
      · intro holds
        have planned : m.planned (.branch lhs comparison rhs target) = _ := planned_branch evaluated
        rw [holds, if_pos rfl, ← isBranch] at planned
        exact jumpsTo_of_planned program planned
      · intro fails
        have here : s = ⟨s.label, .branch lhs comparison rhs target⟩ := by rw [← isBranch]
        have passes : m.step s = (none, { m.advance with generator := last }) := by
          rw [here]
          exact step_pass evaluated fails
        exact ⟨passes, fun other => (step_pass evaluated fails).trans passes.symm⟩
  · intro source s mem
    obtain ⟨text, inSource, region, line, earlier, later, last, reading, labelled, named⟩ :=
      Listing.targets_written mem
    refine ⟨text, inSource, region, line, earlier, later, last, reading, labelled, ?_, ?_⟩
    · intro target isGoto
      exact named (.word .goto) target (by rw [isGoto]; rfl)
    · intro lhs comparison rhs target isBranch
      exact named (.name "THEN") target (by rw [isBranch]; rfl)

/-- Labels are texts, and the first statement with a label stands for it. -/
example :
    (Program.ofStatements [⟨"10", .halt⟩, ⟨"010", .halt⟩, ⟨"010", .halt⟩]).addressOf "010" = .ok 1 :=
  Program.addressOf_ofStatements.2 rfl

end Machine

end Plotline

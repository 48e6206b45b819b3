/-
Module: Plotline.Proofs.StatementShape
Layer: Proofs
Purpose: The check of shapes against the grammar. The check looks at counts, at fixed places and at the last
  token of a line; the grammar says what commands are. Every command passes the check, but for two kinds that
  use as an operand or as a colour a name that the check takes for a mark: it takes the first THEN of a line
  for the one before the target of a jump, and a last FILL for the mark of a filled figure
  (`Grammar.Cmd.check_eq_ok`). What it relies on of expressions is that their parentheses and brackets are
  balanced in number and that they do not end in an operator (`Grammar.Expr.isPhrase`).
Main exports: Command.color?, Token.IsPhrase, Grammar.Expr.isPhrase, Grammar.EarlyThen, Grammar.BareFill,
  Grammar.Cmd.check_eq_ok, Grammar.cmd_of_parseAll, Shape.refuses_mistaken_names_only
-/
import Plotline.Proofs.StatementReading
import Plotline.Proofs.TokenLines

namespace Plotline

/-- The colour of a figure. -/
def Command.color? : Command → Option String
  | .line _ _ _ _ color | .plot _ _ _ color _ | .rectangle _ _ _ _ color _ => some color
  | _ => none

/-! ### Phrases -/

namespace Token

/-- Parentheses and brackets are balanced in number. -/
structure Balanced (ts : List Token) : Prop where
  parens : ts.count .openParen = ts.count .closeParen
  brackets : ts.count .openBracket = ts.count .closeBracket

theorem Balanced.nil : Balanced [] := ⟨rfl, rfl⟩

theorem Balanced.append {ts us : List Token} (left : Balanced ts) (right : Balanced us) :
    Balanced (ts ++ us) where
  parens := by rw [List.count_append, List.count_append, left.parens, right.parens]
  brackets := by rw [List.count_append, List.count_append, left.brackets, right.brackets]

theorem Balanced.parenthesized {ts : List Token} (inner : Balanced ts) :
    Balanced (.openParen :: ts ++ [.closeParen]) where
  parens := by simp [inner.parens]
  brackets := by simp [inner.brackets]

theorem isNamed_iff {s : String} {t : Token} : t.isNamed s = true ↔ t = .name s := by
  cases t <;> simp [isNamed]

/-- Parentheses and brackets are balanced in number, and the last token is no operator. -/
structure IsPhrase (ts : List Token) : Prop where
  balanced : Balanced ts
  ends : ∃ front last, ts = front ++ [last] ∧ last.isOperator = false

namespace IsPhrase

variable {ts us : List Token} {t : Token}

theorem ne_nil (h : IsPhrase ts) : ts ≠ [] := by
  rcases h.ends with ⟨front, last, rfl, _⟩
  simp

theorem length_pos (h : IsPhrase ts) : 0 < ts.length :=
  List.length_pos_iff.2 h.ne_nil

theorem append (left : Balanced ts) (right : IsPhrase us) : IsPhrase (ts ++ us) where
  balanced := left.append right.balanced
  ends := by
    rcases right.ends with ⟨front, last, rfl, operand⟩
    exact ⟨ts ++ front, last, by simp, operand⟩

theorem cons (first : Balanced [t]) (h : IsPhrase ts) : IsPhrase (t :: ts) :=
  append first h

/-- Two phrases with a mark between them that is neither a parenthesis nor a bracket. -/
theorem join (left : IsPhrase ts) (mark : Balanced [t]) (right : IsPhrase us) :
    IsPhrase (ts ++ t :: us) :=
  append left.balanced (cons mark right)

theorem parenthesized (inner : Balanced ts) : IsPhrase (.openParen :: ts ++ [.closeParen]) where
  balanced := inner.parenthesized
  ends := ⟨.openParen :: ts, .closeParen, rfl, rfl⟩

/-- A function before its arguments. -/
theorem called (function : Balanced [t]) (inner : Balanced ts) :
    IsPhrase (t :: .openParen :: ts ++ [.closeParen]) :=
  cons function (parenthesized inner)

end IsPhrase

end Token

open Token (Balanced IsPhrase)

namespace Grammar

theorem isPhrase_element (name : String) {token : Token} {subscript : Subscript}
    (index : Index token subscript) : IsPhrase [.name name, .openBracket, token, .closeBracket] where
  balanced := by cases index <;> exact ⟨rfl, rfl⟩
  ends := ⟨[.name name, .openBracket, token], .closeBracket, rfl, rfl⟩

mutual

theorem Expr.isPhrase : ∀ {ts : List Token} {e : Expression}, Expr ts e → IsPhrase ts
  | _, _, .term h => Term.isPhrase h
  | _, _, .plus left right => (Expr.isPhrase left).join ⟨rfl, rfl⟩ (Term.isPhrase right)
  | _, _, .minus left right => (Expr.isPhrase left).join ⟨rfl, rfl⟩ (Term.isPhrase right)

theorem Term.isPhrase : ∀ {ts : List Token} {e : Expression}, Term ts e → IsPhrase ts
  | _, _, .power h => Power.isPhrase h
  | _, _, .times left right => (Term.isPhrase left).join ⟨rfl, rfl⟩ (Power.isPhrase right)
  | _, _, .divide left right => (Term.isPhrase left).join ⟨rfl, rfl⟩ (Power.isPhrase right)

theorem Power.isPhrase : ∀ {ts : List Token} {e : Expression}, Power ts e → IsPhrase ts
  | _, _, .chain h => Chain.isPhrase h
  | _, _, .negated h => .cons ⟨rfl, rfl⟩ (Power.isPhrase h)
  | _, _, .raised left right =>
      (Chain.isPhrase left).join ⟨rfl, rfl⟩ (.cons ⟨rfl, rfl⟩ (Power.isPhrase right))

theorem Chain.isPhrase : ∀ {ts : List Token} {e : Expression}, Chain ts e → IsPhrase ts
  | _, _, .atom h => Atom.isPhrase h
  | _, _, .raised left right => (Chain.isPhrase left).join ⟨rfl, rfl⟩ (Atom.isPhrase right)

theorem Atom.isPhrase : ∀ {ts : List Token} {e : Expression}, Atom ts e → IsPhrase ts
  | _, _, .number _ => ⟨⟨rfl, rfl⟩, [], _, rfl, rfl⟩
  | _, _, .scalar _ => ⟨⟨rfl, rfl⟩, [], _, rfl, rfl⟩
  | _, _, .element name index => isPhrase_element name index
  | _, _, .emptyCall _ => .cons ⟨rfl, rfl⟩ (.parenthesized .nil)
  | _, _, .call _ given => .called ⟨rfl, rfl⟩ (Arguments.isPhrase given).balanced
  | _, _, .emptyRandom => .cons ⟨rfl, rfl⟩ (.parenthesized .nil)
  | _, _, .builtin _ given => .called ⟨rfl, rfl⟩ (Arguments.isPhrase given).balanced
  | _, _, .group inner => .parenthesized (Expr.isPhrase inner).balanced

theorem Arguments.isPhrase : ∀ {ts : List Token} {es : List Expression}, Arguments ts es → IsPhrase ts
  | _, _, .single h => Expr.isPhrase h
  | _, _, .cons head tail => (Expr.isPhrase head).join ⟨rfl, rfl⟩ (Arguments.isPhrase tail)

end

/-- Coordinates have at least as many commas as there are of them. -/
theorem Coordinates.length_le {ts : List Token} {es : List Expression} (h : Coordinates ts es) :
    es.length ≤ ts.count .comma := by
  induction h with
  | nil => exact Nat.le_refl 0
  | cons head tail ih =>
      rw [List.count_append, List.count_cons_self, List.length_cons]
      omega

/-- The last of the coordinates has its comma too. -/
theorem Coordinates.ends {ts : List Token} {es : List Expression} (h : Coordinates ts es)
    (nonempty : es ≠ []) : ∃ front, ts = front ++ [.comma] := by
  induction h with
  | nil => exact absurd rfl nonempty
  | @cons ts us e es head tail ih =>
      cases tail with
      | nil => exact ⟨ts, rfl⟩
      | cons =>
          rcases ih (by simp) with ⟨front, same⟩
          exact ⟨ts ++ .comma :: front, by simp [same]⟩

/-! ### Names that are taken for marks -/

/-- A conditional jump with a name THEN before the one that introduces its target. The tokens are those after
    the label of a line. -/
def EarlyThen (tokens : List Token) (c : Command) : Prop :=
  ∃ lhs comparison rhs target front, c = .branch lhs comparison rhs target ∧
    tokens = front ++ [Token.name "THEN", Token.number target, Token.endOfLine] ∧
    Token.name "THEN" ∈ front

/-- A figure whose colour is the name FILL, with no other FILL after it. -/
def BareFill (tokens : List Token) (c : Command) : Prop :=
  c.color? = some "FILL" ∧ ¬ [Token.name "FILL", Token.name "FILL", Token.endOfLine] <:+ tokens

theorem not_earlyThen {tokens : List Token} {c : Command}
    (other : ∀ lhs comparison rhs target, c ≠ .branch lhs comparison rhs target) :
    ¬EarlyThen tokens c := by
  rintro ⟨lhs, comparison, rhs, target, _, same, _⟩
  exact other lhs comparison rhs target same

theorem not_bareFill {tokens : List Token} {c : Command} (other : c.color? = none) :
    ¬BareFill tokens c := by
  rintro ⟨fill, _⟩
  rw [other] at fill
  cases fill

/-! ### Commands that pass the check -/

theorem check_drawStart {ts us : List Token} (width : IsPhrase ts) (height : IsPhrase us) :
    Shape.check (Token.word .draw :: Token.name "START" :: (ts ++ Token.comma :: us) ++
      [Token.endOfLine]) = .ok () := by
  have wide := width.length_pos
  have high := height.length_pos
  rcases height.ends with ⟨front, last, rfl, _⟩
  have ends : Token.word .draw :: Token.name "START" :: (ts ++ Token.comma :: (front ++ [last])) =
      (Token.word .draw :: Token.name "START" :: (ts ++ Token.comma :: front)) ++ [last] := by simp
  apply (Shape.check_eq_ok ends).2
  apply Shape.reach_then (t := Token.name "START") rfl
  rw [if_neg (by decide)]
  apply Shape.require_then rfl
  apply Shape.require_of
  simp
  omega

theorem check_assign {ts us : List Token} {place : Variable} (target : Place ts place) (value : IsPhrase us)
    (inLine : Token.endOfLine ∉ us) :
    Shape.check (Token.word .assign :: (ts ++ Token.operator .equal :: us) ++ [Token.endOfLine]) =
      .ok () := by
  rcases value.ends with ⟨front, last, same, operand⟩
  have ends : Token.word .assign :: (ts ++ Token.operator .equal :: us) =
      (Token.word .assign :: (ts ++ Token.operator .equal :: front)) ++ [last] := by simp [same]
  have assigned : Shape.assigned? (Token.word .assign :: (ts ++ Token.operator .equal :: us) ++
      [Token.endOfLine]) =
      some (us ++ [Token.endOfLine]) := by
    cases target with
    | scalar => rfl
    | element name index => cases index <;> rfl
  have starts : (us ++ [Token.endOfLine]).head? ≠ some Token.endOfLine := by
    intro found
    rw [List.head?_append_of_ne_nil _ value.ne_nil] at found
    exact inLine (List.mem_of_mem_head? found)
  apply (Shape.check_eq_ok ends).2
  simp only [Shape.checkWord, Shape.checkAssign, assigned]
  apply Shape.require_then
  · simpa using starts
  · apply Shape.require_of
    rw [operand]
    rfl

theorem check_print {ts : List Token} (value : IsPhrase ts) :
    Shape.check (Token.word .print :: ts ++ [Token.endOfLine]) = .ok () := by
  have long := value.length_pos
  have balanced := value.balanced
  rcases value.ends with ⟨front, last, same, _⟩
  have ends : Token.word .print :: ts = (Token.word .print :: front) ++ [last] := by simp [same]
  apply (Shape.check_eq_ok ends).2
  apply Shape.require_then
  · simp
    omega
  · apply Shape.require_then
    · simp [balanced.parens]
    · apply Shape.require_of
      simp [balanced.brackets]

theorem earlyThen_branch {front : List Token} {lhs rhs : Expression} {comparison : Comparison}
    {target : Label} :
    EarlyThen (front ++ [Token.name "THEN", Token.number target, Token.endOfLine])
        (.branch lhs comparison rhs target) ↔
      Token.name "THEN" ∈ front := by
  constructor
  · rintro ⟨_, _, _, _, others, _, same, mem⟩
    rw [(List.append_inj' same rfl).1]
    exact mem
  · intro mem
    exact ⟨_, _, _, _, front, rfl, rfl, mem⟩

/-- The last tokens of a line with a conditional jump. -/
theorem branch_tokens (ts us : List Token) (op : Operator) (text : String) :
    Token.word .branch :: (ts ++ Token.operator op :: (us ++ [Token.name "THEN", Token.number text])) ++
        [Token.endOfLine] =
      (Token.word .branch :: (ts ++ Token.operator op :: us)) ++
        [Token.name "THEN", Token.number text, Token.endOfLine] := by
  simp

/-- A conditional jump passes exactly if no THEN stands before the one that introduces its target. -/
theorem check_branch {ts us : List Token} {op : Operator} {comparison : Comparison} (text : String)
    (left : IsPhrase ts) (sign : Compares op comparison) (right : IsPhrase us) :
    Shape.check ((Token.word .branch :: (ts ++ Token.operator op :: us)) ++
        [Token.name "THEN", Token.number text, Token.endOfLine]) = .ok () ↔
      Token.name "THEN" ∉ Token.word .branch :: (ts ++ Token.operator op :: us) := by
  have first := left.length_pos
  have second := right.length_pos
  have ends :
      Token.word .branch :: (ts ++ Token.operator op :: (us ++ [Token.name "THEN", Token.number text])) =
      (Token.word .branch :: (ts ++ Token.operator op :: (us ++ [Token.name "THEN"]))) ++
        [Token.number text] := by simp
  rw [← branch_tokens, Shape.check_eq_ok ends, branch_tokens]
  constructor
  · intro passed mem
    have free := Shape.free_of_checkBranch _ text passed _ mem
    cases free
  · intro free
    apply Shape.checkBranch_of
    · intro t mem
      cases named : t.isNamed "THEN" with
      | false => rfl
      | true =>
          rw [Token.isNamed_iff.1 named] at mem
          exact absurd mem free
    · simp
      omega
    · cases sign <;> simp [Token.isComparison]

/-- A figure passes exactly if its colour is not a bare FILL. -/
theorem check_figure {word : Word} {corners : List Expression} {ts us : List Token} {color : String}
    {filled : Bool} {c : Command} (checks : Shape.checkWord word = Shape.checkFigure corners.length)
    (nonempty : corners ≠ []) (coordinates : Coordinates ts corners) (paint : Paint us color filled)
    (painted : c.color? = some color) :
    Shape.check (Token.word word :: (ts ++ us) ++ [Token.endOfLine]) = .ok () ↔
      ¬BareFill (Token.word word :: (ts ++ us) ++ [Token.endOfLine]) c := by
  have enough : corners.length ≤ (Token.word word :: (ts ++ us) ++ [Token.endOfLine]).count Token.comma := by
    have commas := coordinates.length_le
    rw [List.cons_append, List.append_assoc, List.count_cons_of_ne (by simp), List.count_append]
    omega
  rcases coordinates.ends nonempty with ⟨front, rfl⟩
  cases paint with
  | plain =>
      have ends : Token.word word :: (front ++ [Token.comma] ++ [Token.name color]) =
          (Token.word word :: (front ++ [Token.comma])) ++ [Token.name color] := by simp
      have places : Token.word word :: (front ++ [Token.comma] ++ [Token.name color]) ++ [Token.endOfLine] =
          (Token.word word :: front) ++ [Token.comma, Token.name color, Token.endOfLine] := by simp
      have apart : ¬ [Token.name "FILL", Token.name "FILL", Token.endOfLine] <:+
          (Token.word word :: front) ++ [Token.comma, Token.name color, Token.endOfLine] := by
        rintro ⟨others, same⟩
        cases (List.append_inj' same rfl).2
      rw [places] at enough
      rw [Shape.check_eq_ok ends, checks, places, Shape.checkFigure_eq_ok (by simp), and_iff_right enough,
        BareFill, painted, Option.some.injEq, and_iff_left apart]
      -- Were the colour FILL, it would be taken for the mark and the comma before it for the colour.
      by_cases fill : color = "FILL"
      · simp [fill, Token.isNamed, Token.isName]
      · simp [fill, Token.isNamed, Token.isName]
  | filled =>
      have ends : Token.word word :: (front ++ [Token.comma] ++ [Token.name color, Token.name "FILL"]) =
          (Token.word word :: (front ++ [Token.comma, Token.name color])) ++ [Token.name "FILL"] := by simp
      have places : Token.word word :: (front ++ [Token.comma] ++ [Token.name color, Token.name "FILL"]) ++
          [Token.endOfLine] = (Token.word word :: (front ++ [Token.comma])) ++
            [Token.name color, Token.name "FILL", Token.endOfLine] := by simp
      rw [places] at enough ⊢
      apply iff_of_true
      · rw [← places, Shape.check_eq_ok ends, checks, places, Shape.checkFigure_eq_ok (by simp)]
        exact ⟨enough, rfl⟩
      · rintro ⟨fill, apart⟩
        cases painted.symm.trans fill
        exact apart ⟨_, rfl⟩

/-- A command passes the check unless a name in it is taken for a mark. -/
theorem Cmd.check_eq_ok {ts : List Token} {c : Command} (h : Cmd ts c) :
    Shape.check (ts ++ [Token.endOfLine]) = .ok () ↔
      ¬EarlyThen (ts ++ [Token.endOfLine]) c ∧ ¬BareFill (ts ++ [Token.endOfLine]) c := by
  -- Of commands that are neither conditional jumps nor figures it only remains to show that they pass.
  have plain : (∀ lhs comparison rhs target, c ≠ .branch lhs comparison rhs target) → c.color? = none →
      Shape.check (ts ++ [Token.endOfLine]) = .ok () → (Shape.check (ts ++ [Token.endOfLine]) = .ok () ↔
        ¬EarlyThen (ts ++ [Token.endOfLine]) c ∧ ¬BareFill (ts ++ [Token.endOfLine]) c) := by
    intro noJump noColor passes
    exact iff_of_true passes ⟨not_earlyThen noJump, not_bareFill noColor⟩
  cases h with
  | dim | drawFinish | halt | goto | input | printText => exact plain (by simp) rfl rfl
  | drawStart width height => exact plain (by simp) rfl (check_drawStart width.isPhrase height.isPhrase)
  | assign target value =>
      exact plain (by simp) rfl (check_assign target value.isPhrase value.endOfLine_not_mem)
  | print value => exact plain (by simp) rfl (check_print value.isPhrase)
  | @branch ts us lhs rhs op comparison text left sign right digits =>
      rw [branch_tokens, check_branch text left.isPhrase sign right.isPhrase, earlyThen_branch,
        and_iff_left (not_bareFill rfl)]
  | line corners paint | plot corners paint | rectangle corners paint =>
      rw [and_iff_right (not_earlyThen (by simp))]
      exact check_figure rfl (by simp) corners paint rfl

/-! ### Lines that are read as one statement -/

/-- A line without further labels that is read as one statement is its label and a command. -/
theorem cmd_of_parseAll {label : Label} {r last : Region} {body : List Token} {s : Statement}
    (written : ∀ t ∈ body, t.IsWritten)
    (h : Statement.parseAll r (Token.label label :: body ++ [Token.endOfLine]) = .ok ([s], last)) :
    s.label = label ∧ Cmd body s.command ∧ s.command.Moves r last := by
  rcases items_of_parse (Nat.le_refl _) h with ⟨us, rest, split, ends, items⟩
  have inLine : Token.endOfLine ∉ Token.label label :: body := by
    intro mem
    rcases List.mem_cons.1 mem with same | mem
    · cases same
    · exact written _ mem
  have whole : us = Token.label label :: body := by
    rw [← untilEnd_append items.endOfLine_not_mem ends, ← split]
    exact untilEnd_append inLine rfl
  rw [whole] at items
  cases items with
  | label _ _ more =>
      generalize same : body = tokens at more
      cases more with
      | label _ l _ => exact absurd (written (Token.label l) (by simp [same])) id
      | command head moves more =>
          cases more with
          | nil =>
              rw [List.append_nil]
              exact ⟨rfl, head, moves⟩
          | label _ l _ => exact absurd (written (Token.label l) (by simp [same])) id

end Grammar

namespace Shape

/-- The check of shapes refuses a line that is read as one statement only if it takes a name in it for a mark:
    a THEN before the one that introduces the target of a conditional jump, or a FILL that is the colour of a
    figure and has no other FILL after it. Every such line it does refuse. -/
theorem refuses_mistaken_names_only {label : Label} {written tokens : List Token} {r last : Region}
    {s : Statement} (line : String) (inLine : ∀ t ∈ written, t.IsWritten)
    (expanded : Token.expandSigns (Token.label label :: written ++ [Token.endOfLine]) = tokens)
    (read : Statement.parseAll r tokens = .ok ([s], last)) :
    (∃ problem, diagnose label line tokens.tail = .error problem) ↔
      Grammar.EarlyThen tokens.tail s.command ∨ Grammar.BareFill tokens.tail s.command := by
  rw [Line.expandSigns_line] at expanded
  subst expanded
  have allWritten := Token.forall_mem_expandFrom Token.signTokens_isWritten inLine true
  rcases Grammar.cmd_of_parseAll allWritten read with ⟨_, command, _⟩
  have refused : (∃ problem, diagnose label line (Token.expandFrom true written ++ [Token.endOfLine]) =
      .error problem) ↔
      ¬check (Token.expandFrom true written ++ [Token.endOfLine]) = .ok () := by
    rw [← diagnose_eq_ok]
    cases diagnose label line (Token.expandFrom true written ++ [Token.endOfLine]) <;> simp
  rw [List.cons_append, List.tail_cons, refused, command.check_eq_ok, not_and_or, not_not, not_not]

/-- The tokens of `10 IF -THEN < 1 THEN 20`, with the sign of the first THEN replaced. -/
def signedThen : List Token :=
  [.label "10", .word .branch, .openParen, .number "0", .operator .minus, .number "1", .closeParen,
    .operator .times, .name "THEN", .operator .less, .number "1", .name "THEN", .number "20", .endOfLine]

/-- The statement that they say. -/
def signedThenStatement : Statement :=
  ⟨"10", .branch (.binary .times (.binary .minus (.number 0.0) (.number 1.0)) (.var (.scalar "THEN"))) .less
    (.number 1.0) "20"⟩

/-- They are refused for the THEN that is an operand. -/
theorem refuses_mistaken_names_only_operand :
    Statement.parseAll .closed signedThen = .ok ([signedThenStatement], .closed) ∧
      Grammar.EarlyThen signedThen.tail signedThenStatement.command ∧
      ∃ problem, diagnose "10" "10 IF -THEN < 1 THEN 20" signedThen.tail = .error problem := by
  have inLine : ∀ t ∈ [Token.word .branch, .operator .minus, .name "THEN", .operator .less, .number "1",
      .name "THEN", .number "20"], t.IsWritten := by
    have reserved : Token.IsName "THEN" := ⟨⟨_, _, rfl, rfl⟩, List.all_eq_true.1 rfl, by decide, rfl⟩
    have one : Token.IsNumerals "1" := ⟨by decide, List.all_eq_true.1 rfl⟩
    have target : Token.IsNumerals "20" := ⟨by decide, List.all_eq_true.1 rfl⟩
    simp [Token.IsWritten, reserved, one, target]
  have read : Statement.parseAll .closed signedThen = .ok ([signedThenStatement], .closed) := rfl
  have early : Grammar.EarlyThen signedThen.tail signedThenStatement.command :=
    ⟨_, _, _, _, signedThen.tail.take 10, rfl, rfl, by decide⟩
  exact ⟨read, early, (refuses_mistaken_names_only _ inLine rfl read).2 (Or.inl early)⟩

end Shape

end Plotline

/-
Module: Plotline.Proofs.PrintedStatement
Layer: Proofs
Purpose: The text of a statement reads back. `Command.Prints` says of a command that its text is cut into
  tokens that say the command, hold no sign and pass the check of their shape; it is shown for each kind of
  command from what is known of its parts. A line that is read as one statement has such parts, so its
  statement is read from its own text again.
Main exports: Command.literals, Command.Prints, Grammar.Cmd.prints,
  Statement.text_reads_back
-/
import Plotline.Proofs.PrintedExpression
import Plotline.Proofs.SignGrammar
import Plotline.Proofs.StatementShape

namespace Plotline

/-! ### Literals -/

/-- The number literals in a command. -/
def Command.literals : Command → List Float
  | .drawStart width height => width.literals ++ height.literals
  | .branch lhs _ rhs _ => lhs.literals ++ rhs.literals
  | .assign place value => place.literals ++ value.literals
  | .line x1 y1 x2 y2 _ => Expression.literalsOf [x1, y1, x2, y2]
  | .plot x y radius _ _ => Expression.literalsOf [x, y, radius]
  | .print value => value.literals
  | .rectangle x1 y1 x2 y2 _ _ => Expression.literalsOf [x1, y1, x2, y2]
  | _ => []

/-! ### Commands that print -/

/-- The text of a command is cut into tokens that say the command, hold no sign and pass the check. -/
structure Command.Prints (c : Command) (ts : List Token) : Prop where
  reads : Grammar.Cmd ts c
  writes : Token.Writes c.text.toList ts
  stable : Token.expandFrom true ts = ts
  shape : Shape.check (ts ++ [.endOfLine]) = .ok ()

/-- The names that have a meaning in some command. -/
theorem Token.isName_reserved {s : String} (h : s ∈ ["START", "FINISH", "THEN", "FILL"]) :
    Token.IsName s := by
  simp only [List.mem_cons, List.not_mem_nil, or_false] at h
  rcases h with rfl | rfl | rfl | rfl <;> exact ⟨⟨_, _, rfl, rfl⟩, List.all_eq_true.1 rfl, by decide, rfl⟩

/-- An expression that can be printed, with names of a given kind. -/
structure Expression.IsPrintable (name : String → Prop) (e : Expression) : Prop where
  printable : e.Printable name Number.IsLiteral
  named : ∀ s, name s → Token.IsName s

namespace Expression.IsPrintable

variable {name : String → Prop} {e : Expression}

theorem expr (h : e.IsPrintable name) : Grammar.Expr e.written e :=
  (h.printable.atom h.named).expr

theorem writes (h : e.IsPrintable name) : Token.Writes e.text.toList e.written :=
  h.printable.writes h.named

/-- A name that is not of the given kind is not among the tokens. -/
theorem name_not_mem (h : e.IsPrintable name) {s : String} (other : ¬name s) : .name s ∉ e.written :=
  fun mem => other (h.printable.name_of_mem h.named mem)

end Expression.IsPrintable

namespace Command

variable {name : String → Prop}

open Token (Writes)

/-! ### Commands without expressions -/

theorem prints_dim {s : String} {length : Nat} (isName : Token.IsName s)
    (bound : length < Number.naturalLimit) :
    Prints (.dim s length) [.word .dim, .name s, .number (String.ofList (Nat.toDigits 10 length))] where
  reads := .dim s (Number.readNatural_digits bound)
  writes := by
    have operands := (Writes.token (t := .name s) isName).spaced
      (.token (t := .number _) (Number.toDigits_isNumerals length)) (by simp)
    have whole := (Writes.token (t := .word .dim) trivial).spaced operands (by simp)
    simpa [text, Token.text, Word.text] using whole
  stable := rfl
  shape := rfl

theorem prints_halt : Prints .halt [.word .halt] where
  reads := .halt
  writes := Writes.token (t := .word .halt) trivial
  stable := rfl
  shape := rfl

/-- A word and one token after it, which is no minus. -/
theorem prints_operand {c : Command} (word : Word) {t : Token} (written : t.IsWritten)
    (plain : t ≠ .operator .minus) (reads : Grammar.Cmd [.word word, t] c)
    (textIs : c.text.toList = word.text.toList ++ ' ' :: t.text.toList)
    (shape : Shape.check [.word word, t, .endOfLine] = .ok ()) : Prints c [.word word, t] where
  reads := reads
  writes := by
    rw [textIs]
    exact (Writes.token (t := .word word) trivial).spaced (.token written) (by simp)
  stable := Token.Expands.stable (.cons_of_ne (by simp) (.cons_of_ne plain (.nil _)))
  shape := shape

theorem prints_drawFinish : Prints .drawFinish [.word .draw, .name "FINISH"] :=
  prints_operand .draw (Token.isName_reserved (by simp)) (by simp) .drawFinish
    (by simp [text, Token.text, Word.text]) rfl

theorem prints_goto {target : Label} (numerals : Token.IsNumerals target)
    (digits : target.toList.all Char.isDigit = true) : Prints (.goto target) [.word .goto, .number target] :=
  prints_operand .goto numerals (by simp) (.goto digits) (by simp [text, Token.text, Word.text]) rfl

theorem prints_input {s : String} (isName : Token.IsName s) : Prints (.input s) [.word .input, .name s] :=
  prints_operand .input isName (by simp) (.input s) (by simp [text, Token.text, Word.text]) rfl

theorem prints_printText {s : String} (quotable : Token.IsQuotable s) :
    Prints (.printText s) [.word .print, .quoted s] :=
  prints_operand .print quotable (by simp) (.printText s) (by simp [text, Token.text, Word.text]) rfl

/-! ### Commands with expressions -/

theorem prints_print {value : Expression} (h : value.IsPrintable name) :
    Prints (.print value) (.word .print :: value.written) where
  reads := .print h.expr
  writes := by
    have whole := (Writes.token (t := .word .print) trivial).spaced h.writes value.written_ne_nil
    simpa [text, Token.text, Word.text] using whole
  stable := (Token.Expands.cons_of_ne (by simp) (value.written_expands _)).stable
  shape := Grammar.check_print h.expr.isPhrase

theorem prints_drawStart {width height : Expression} (first : width.IsPrintable name)
    (second : height.IsPrintable name) :
    Prints (.drawStart width height)
      (.word .draw :: .name "START" :: (width.written ++ .comma :: height.written)) where
  reads := .drawStart first.expr second.expr
  writes := by
    have operands := first.writes.listed second.writes height.written_ne_nil
    have phase := (Writes.token (t := .name "START") (Token.isName_reserved (by simp))).spaced operands
      (by simp)
    have whole := (Writes.token (t := .word .draw) trivial).spaced phase (by simp)
    simpa [text, commaList, Token.text, Word.text] using whole
  stable := Token.Expands.stable (.cons_of_ne (by simp) (.cons_of_ne (by simp)
    (.join (width.written_expands _) (height.written_expands _))))
  shape := Grammar.check_drawStart first.expr.isPhrase second.expr.isPhrase

theorem place_written {place : Variable} (h : place.Printable name Number.IsLiteral) :
    Grammar.Place place.written place := by
  cases place with
  | scalar s => exact .scalar s
  | element s i => exact .element s (Grammar.index_token h.2)

theorem prints_assign {place : Variable} {value : Expression}
    (target : place.Printable name Number.IsLiteral) (h : value.IsPrintable name) :
    Prints (.assign place value) (.word .assign :: (place.written ++ .operator .equal :: value.written)) where
  reads := .assign (place_written target) h.expr
  writes := by
    have assigned := (Writes.token (t := .operator .equal) trivial).spaced h.writes value.written_ne_nil
    have operands := (Variable.writes target h.named).spaced assigned (by simp)
    have whole := (Writes.token (t := .word .assign) trivial).spaced operands (by simp)
    simpa [text, Token.text, Word.text, Operator.symbol] using whole
  stable := Token.Expands.stable (.cons_of_ne (by simp)
    (.join (Expression.written_expands (.var place) _) (value.written_expands _)))
  shape := Grammar.check_assign (place_written target) h.expr.isPhrase h.expr.endOfLine_not_mem

theorem prints_branch {lhs rhs : Expression} (comparison : Comparison) {target : Label}
    (left : lhs.IsPrintable name) (right : rhs.IsPrintable name) (noThen : ¬name "THEN")
    (numerals : Token.IsNumerals target) (digits : target.toList.all Char.isDigit = true) :
    Prints (.branch lhs comparison rhs target)
      (.word .branch :: (lhs.written ++ .operator (Signed.comparisonSign comparison) ::
        (rhs.written ++ [.name "THEN", .number target]))) where
  reads := .branch left.expr (Signed.comparisonSign_compares comparison) right.expr digits
  writes := by
    have jump := (Writes.token (t := .name "THEN") (Token.isName_reserved (by simp))).spaced
      (.token (t := .number target) numerals) (by simp)
    have second := (Writes.token (t := .operator (Signed.comparisonSign comparison)) trivial).spaced
      (right.writes.spaced jump (by simp)) (by simp)
    have whole := (Writes.token (t := .word .branch) trivial).spaced
      (left.writes.spaced second (by simp)) (by simp)
    have sign : comparison.text = (Token.operator (Signed.comparisonSign comparison)).text := by
      cases comparison <;> rfl
    simpa [text, sign, Token.text, Word.text] using whole
  stable := Token.Expands.stable (.cons_of_ne (by simp) (.join (lhs.written_expands _)
    (.append (rhs.written_expands _) (.cons_of_ne (by simp) (.cons_of_ne (by simp) (.nil _))))))
  shape := by
    rw [Grammar.branch_tokens, Grammar.check_branch target left.expr.isPhrase
      (Signed.comparisonSign_compares comparison) right.expr.isPhrase]
    -- The word before the target is the first of its kind, since neither expression holds it as a name.
    simp [left.name_not_mem noThen, right.name_not_mem noThen]

/-! ### Figures -/

/-- The tokens of coordinates, each of them with a comma after it. -/
def cornerTokens : List Expression → List Token
  | [] => []
  | e :: rest => e.written ++ .comma :: cornerTokens rest

/-- The word that marks a figure as filled. -/
def fillTokens (filled : Bool) : List Token :=
  if filled then [.name "FILL"] else []

/-- The tokens of a figure. -/
def figureTokens (word : Word) (corners : List Expression) (color : String) (filled : Bool) :
    List Token :=
  .word word :: (cornerTokens corners ++ .name color :: fillTokens filled)

theorem coordinates_cornerTokens {corners : List Expression}
    (all : ∀ e ∈ corners, e.IsPrintable name) :
    Grammar.Coordinates (cornerTokens corners) corners := by
  induction corners with
  | nil => exact .nil
  | cons e rest ih =>
      rcases List.forall_mem_cons.1 all with ⟨first, others⟩
      exact .cons first.expr (ih others)

theorem paint_fillTokens (color : String) (filled : Bool) :
    Grammar.Paint (.name color :: fillTokens filled) color filled := by
  cases filled with
  | false => exact .plain color
  | true => exact .filled color

theorem writes_corners {corners : List Expression} {color : String}
    (all : ∀ e ∈ corners, e.IsPrintable name) (isName : Token.IsName color) :
    Writes (commaList (corners.map Expression.text ++ [color])).toList
      (cornerTokens corners ++ [.name color]) := by
  induction corners with
  | nil =>
      have single := Writes.token (t := .name color) isName
      simpa [commaList, cornerTokens, Token.text] using single
  | cons e rest ih =>
      rcases List.forall_mem_cons.1 all with ⟨first, others⟩
      have both := first.writes.listed (ih others) (by simp)
      have more : rest.map Expression.text ++ [color] ≠ [] := by simp
      have chars : (commaList ((e :: rest).map Expression.text ++ [color])).toList =
          e.text.toList ++ ',' :: ' ' :: (commaList (rest.map Expression.text ++ [color])).toList := by
        cases texts : rest.map Expression.text ++ [color] with
        | nil => exact absurd texts more
        | cons t ts =>
            rw [List.map_cons, List.cons_append, texts, commaList, String.intercalate_cons_cons]
            simp [commaList]
      rw [chars]
      simpa [cornerTokens] using both

theorem writes_figure (word : Word) {corners : List Expression} {color : String} (filled : Bool)
    (all : ∀ e ∈ corners, e.IsPrintable name) (isName : Token.IsName color) :
    Writes (word.text ++ " " ++ commaList (corners.map Expression.text ++ [color]) ++ fillText filled).toList
      (figureTokens word corners color filled) := by
  have operands := writes_corners all isName
  have figure := (Writes.token (t := .word word) trivial).spaced operands (by simp)
  cases filled with
  | false => simpa [figureTokens, fillTokens, fillText, Token.text] using figure
  | true =>
      have whole := figure.spaced (.token (t := .name "FILL") (Token.isName_reserved (by simp))) (by simp)
      simpa [figureTokens, fillTokens, fillText, Token.text] using whole

theorem expands_cornerTokens (corners : List Expression) :
    Token.Expands true true (cornerTokens corners) (cornerTokens corners) := by
  induction corners with
  | nil => exact .nil true
  | cons e rest ih => exact (e.written_expands true).join (t := .comma) ih

theorem stable_figureTokens (word : Word) (corners : List Expression) (color : String) (filled : Bool) :
    Token.expandFrom true (figureTokens word corners color filled) =
      figureTokens word corners color filled := by
  have paint : Token.Expands true false (.name color :: fillTokens filled)
      (.name color :: fillTokens filled) := by
    cases filled with
    | false => exact .cons_of_ne (by simp) (.nil _)
    | true => exact .cons_of_ne (by simp) (.cons_of_ne (by simp) (.nil _))
  exact Token.Expands.stable (.cons_of_ne (by simp) ((expands_cornerTokens corners).append paint))

/-- A figure prints if its kind is read as figures are. -/
theorem prints_figure {c : Command} (word : Word) {corners : List Expression} {color : String} {filled : Bool}
    (all : ∀ e ∈ corners, e.IsPrintable name) (isName : Token.IsName color) (plain : color ≠ "FILL")
    (reads : ∀ {ts us : List Token}, Grammar.Coordinates ts corners → Grammar.Paint us color filled →
      Grammar.Cmd (.word word :: (ts ++ us)) c)
    (textIs : c.text.toList =
      (word.text ++ " " ++ commaList (corners.map Expression.text ++ [color]) ++ fillText filled).toList)
    (painted : c.color? = some color) : Prints c (figureTokens word corners color filled) where
  reads := reads (coordinates_cornerTokens all) (paint_fillTokens color filled)
  writes := by
    rw [textIs]
    exact writes_figure word filled all isName
  stable := stable_figureTokens word corners color filled
  shape := by
    apply (reads (coordinates_cornerTokens all) (paint_fillTokens color filled)).check_eq_ok.2
    constructor
    · apply Grammar.not_earlyThen
      rintro _ _ _ _ rfl
      cases painted
    · rintro ⟨fill, _⟩
      exact plain (Option.some.inj (painted.symm.trans fill))

theorem prints_line {x1 y1 x2 y2 : Expression} {color : String}
    (all : ∀ e ∈ [x1, y1, x2, y2], e.IsPrintable name) (isName : Token.IsName color)
    (plain : color ≠ "FILL") :
    Prints (.line x1 y1 x2 y2 color) (figureTokens .line [x1, y1, x2, y2] color false) :=
  prints_figure .line all isName plain .line (by simp [text, Word.text, fillText]) rfl

theorem prints_plot {x y radius : Expression} {color : String} {filled : Bool}
    (all : ∀ e ∈ [x, y, radius], e.IsPrintable name) (isName : Token.IsName color)
    (plain : color ≠ "FILL") :
    Prints (.plot x y radius color filled) (figureTokens .plot [x, y, radius] color filled) :=
  prints_figure .plot all isName plain .plot (by simp [text, Word.text]) rfl

theorem prints_rectangle {x1 y1 x2 y2 : Expression} {color : String} {filled : Bool}
    (all : ∀ e ∈ [x1, y1, x2, y2], e.IsPrintable name) (isName : Token.IsName color)
    (plain : color ≠ "FILL") :
    Prints (.rectangle x1 y1 x2 y2 color filled)
      (figureTokens .rectangle [x1, y1, x2, y2] color filled) :=
  prints_figure .rectangle all isName plain .rectangle (by simp [text, Word.text]) rfl

end Command

/-! ### Commands that were read -/

namespace Grammar

variable {allowed : Token → Prop}

/-- A finite literal that was read from a token and reads back can be printed. -/
theorem isLiteral_of_read {x : Float} (written : ∀ t, allowed t → t.IsWritten)
    (read : Number.IsReadFrom allowed x)
    (literal : Number.isFinite x = true ∧ Number.read? (Number.text x) = some x) :
    Number.IsLiteral x := by
  have unsigned : Number.isNegative x = false := by
    rcases read with rfl | ⟨text, mem, value⟩
    · exact Number.isNegative_ofScientific ..
    · exact Number.isNegative_of_read (written _ mem) value
  exact ⟨Number.text_isNumerals literal.1 unsigned, literal.2⟩

theorem Expr.isPrintable {ts : List Token} {e : Expression} (h : Expr ts e)
    (all : ∀ t ∈ ts, allowed t) (written : ∀ t, allowed t → t.IsWritten)
    (literals : ∀ x ∈ e.literals, Number.isFinite x = true ∧ Number.read? (Number.text x) = some x) :
    e.IsPrintable fun s => allowed (.name s) where
  printable := (h.printable all).mono fun x mem read => isLiteral_of_read written read (literals x mem)
  named := fun s => written (.name s)

theorem Coordinates.isPrintable {ts : List Token} {es : List Expression} (h : Coordinates ts es)
    (all : ∀ t ∈ ts, allowed t) (written : ∀ t, allowed t → t.IsWritten)
    (literals : ∀ x ∈ Expression.literalsOf es,
      Number.isFinite x = true ∧ Number.read? (Number.text x) = some x) :
    ∀ e ∈ es, e.IsPrintable fun s => allowed (.name s) := by
  induction h with
  | nil => simp
  | cons head tail ih =>
      rcases forall_mem_sides all with ⟨first, others⟩
      rcases List.forall_mem_append.1 literals with ⟨firstLiterals, otherLiterals⟩
      exact List.forall_mem_cons.2 ⟨head.isPrintable first written firstLiterals, ih others otherLiterals⟩

theorem Place.printable {ts : List Token} {place : Variable} (h : Place ts place)
    (all : ∀ t ∈ ts, allowed t) (written : ∀ t, allowed t → t.IsWritten)
    (literals : ∀ x ∈ place.literals,
      Number.isFinite x = true ∧ Number.read? (Number.text x) = some x) :
    place.Printable (fun s => allowed (.name s)) Number.IsLiteral := by
  cases h with
  | scalar name => exact all _ (by simp)
  | @element name token subscript index =>
      refine ⟨all _ (by simp), ?_⟩
      have read := index.printable (all token (by simp))
      cases subscript with
      | name => exact read
      | literal x =>
          exact isLiteral_of_read written read
            (literals x (by simp [Variable.literals, Subscript.literals]))

theorem Paint.isName {ts : List Token} {color : String} {filled : Bool} (h : Paint ts color filled)
    (all : ∀ t ∈ ts, t.IsWritten) : Token.IsName color := by
  cases h with
  | plain => exact all (.name color) (by simp)
  | filled => exact all (.name color) (by simp)

/-- A command whose tokens stood in a line prints, if its literals are finite and read back and its colour
    is not the word that marks a figure as filled. -/
theorem Cmd.prints {ts : List Token} {c : Command} (h : Cmd ts c) (written : ∀ t ∈ ts, t.IsWritten)
    (shape : Shape.check (ts ++ [.endOfLine]) = .ok ())
    (literals : ∀ x ∈ c.literals, Number.isFinite x = true ∧ Number.read? (Number.text x) = some x)
    (colors : ∀ color ∈ c.color?, color ≠ "FILL") : ∃ us, c.Prints us := by
  cases h with
  | dim name value =>
      exact ⟨_, Command.prints_dim (written (.name name) (by simp)) (Number.lt_of_readNatural value)⟩
  | drawStart w h =>
      rcases List.forall_mem_append.1 literals with ⟨first, second⟩
      have sides := forall_mem_sides (List.forall_mem_cons.1 (List.forall_mem_cons.1 written).2).2
      exact ⟨_, Command.prints_drawStart (w.isPrintable sides.1 (fun _ => id) first)
        (h.isPrintable sides.2 (fun _ => id) second)⟩
  | drawFinish => exact ⟨_, Command.prints_drawFinish⟩
  | halt => exact ⟨_, Command.prints_halt⟩
  | @goto text digits => exact ⟨_, Command.prints_goto (written (.number text) (by simp)) digits⟩
  | @branch us vs _ _ op comparison text left sign right digits =>
      rcases List.forall_mem_append.1 literals with ⟨first, second⟩
      -- In the line that was read the first THEN is the last, so no name in the expressions is one.
      rw [branch_tokens, check_branch text left.isPhrase sign right.isPhrase] at shape
      have allowed : ∀ t ∈ us ++ .operator op :: vs, t.IsWritten ∧ t ≠ .name "THEN" := by
        intro t mem
        refine ⟨written t (List.mem_cons_of_mem _ ?_), fun same => ?_⟩
        · rcases List.mem_append.1 mem with mem | mem
          · exact List.mem_append_left _ mem
          · exact List.mem_append_right _ (List.mem_append_left _ mem)
        · exact shape (same ▸ List.mem_cons_of_mem _ mem)
      rcases forall_mem_sides allowed with ⟨leftAllowed, rightAllowed⟩
      exact ⟨_, Command.prints_branch comparison (left.isPrintable leftAllowed (fun _ h => h.1) first)
        (right.isPrintable rightAllowed (fun _ h => h.1) second) (fun h => h.2 rfl)
        (written (.number text) (by simp)) digits⟩
  | input name => exact ⟨_, Command.prints_input (written (.name name) (by simp))⟩
  | assign target h =>
      rcases List.forall_mem_append.1 literals with ⟨first, second⟩
      have sides := forall_mem_sides (List.forall_mem_cons.1 written).2
      exact ⟨_, Command.prints_assign (target.printable sides.1 (fun _ => id) first)
        (h.isPrintable sides.2 (fun _ => id) second)⟩
  | print h =>
      have operand := (List.forall_mem_cons.1 written).2
      exact ⟨_, Command.prints_print (h.isPrintable operand (fun _ => id) literals)⟩
  | printText text => exact ⟨_, Command.prints_printText (written (.quoted text) (by simp))⟩
  | line corners paint =>
      rcases List.forall_mem_append.1 (List.forall_mem_cons.1 written).2 with ⟨first, second⟩
      exact ⟨_, Command.prints_line (corners.isPrintable first (fun _ => id) literals) (paint.isName second)
        (colors _ rfl)⟩
  | plot corners paint =>
      rcases List.forall_mem_append.1 (List.forall_mem_cons.1 written).2 with ⟨first, second⟩
      exact ⟨_, Command.prints_plot (corners.isPrintable first (fun _ => id) literals) (paint.isName second)
        (colors _ rfl)⟩
  | rectangle corners paint =>
      rcases List.forall_mem_append.1 (List.forall_mem_cons.1 written).2 with ⟨first, second⟩
      exact ⟨_, Command.prints_rectangle (corners.isPrintable first (fun _ => id) literals)
        (paint.isName second) (colors _ rfl)⟩

end Grammar

namespace Statement

/-- A line that is read as one statement: the statement is read from its own text again, in the same region
    and with the same region after it. -/
theorem text_reads_back {line : String} {tokens : List Token} {r last : Region} {s : Statement}
    (cut : Line.tokenize line = .ok tokens) (read : parseAll r tokens = .ok ([s], last))
    (finite : ∀ x ∈ s.command.literals, Number.isFinite x = true)
    (readsBack : ∀ x ∈ s.command.literals, Number.read? (Number.text x) = some x)
    (colors : ∀ color ∈ s.command.color?, color ≠ "FILL") :
    ∃ printed, Line.tokenize s.text = .ok printed ∧ parseAll r printed = .ok ([s], last) := by
  cases Line.isCanonical_of_tokenize cut with
  | @intro label body field written signFree shape =>
      rcases s with ⟨other, c⟩
      rcases Grammar.cmd_of_parseAll written read with ⟨rfl, command, moves⟩
      rcases command.prints written shape (fun x mem => ⟨finite x mem, readsBack x mem⟩) colors with
        ⟨us, prints⟩
      have chars : text ⟨other, c⟩ = String.ofList (other.toList ++ ' ' :: c.text.toList) := by
        rw [text, ← String.toList_inj]
        simp
      have printed : Token.Printed (' ' :: c.text.toList) us := by
        have whole := prints.writes.printed
        rcases prints.reads.starts with ⟨word, operands, rfl, _⟩
        exact .space whole
      refine ⟨.label other :: us ++ [.endOfLine], ?_, ?_⟩
      · rw [chars]
        exact Line.tokenize_of_printed field printed (by simp) prints.stable prints.shape
      · have ends : Grammar.IsEnd [.endOfLine] := rfl
        have items : Grammar.Items none r (.label other :: (us ++ [])) [⟨other, c⟩] last :=
          .label none other (.command prints.reads moves (.nil _ _))
        rw [List.append_nil] at items
        exact items.parse_eq ends (by simp)

/-- The statement of the line `30 LET A[1] = -B`. Its sign is a product. -/
def signedAssignment : Statement :=
  ⟨"30", .assign (.element "A" (.literal 1.0))
    (.binary .times (.binary .minus (.number 0.0) (.number 1.0)) (.var (.scalar "B")))⟩

theorem signedAssignment_reads_back :
    ∃ printed, Line.tokenize "30 LET A[1] = ((0 - 1) * B)" = .ok printed ∧
      parseAll .closed printed = .ok ([signedAssignment], .closed) := by
  have cut : Line.tokenize "30 let a[1] = -b" = .ok
      [.label "30", .word .assign, .name "A", .openBracket, .number "1", .closeBracket, .operator .equal,
        .openParen, .number "0", .operator .minus, .number "1", .closeParen, .operator .times, .name "B",
        .endOfLine] := by
    decide +kernel
  have back : ∃ printed, Line.tokenize signedAssignment.text = .ok printed ∧
      parseAll .closed printed = .ok ([signedAssignment], .closed) :=
    text_reads_back cut rfl (by decide +kernel) (by decide +kernel) (fun _ none => by cases none)
  have printedAs : signedAssignment.text = "30 LET A[1] = ((0 - 1) * B)" := by
    decide +kernel
  rwa [printedAs] at back

end Statement

end Plotline

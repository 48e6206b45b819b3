/-
Module: Plotline.Proofs.StatementReading
Layer: Proofs
Purpose: Reading commands and token lists follows the grammar exactly. Each command is read as what it says
  if the region allows it and the next token cannot continue it (`Grammar.Cmd.reads`), and whatever is read
  is a command that the region allows (`Grammar.cmd_of_parse`). So a token list is read exactly if it is, up
  to the end of its line, a sequence of labels and commands, and as what that sequence says
  (`Grammar.parse_follows_grammar`), which is only one thing.
Main exports: Grammar.Cmd.reads, Grammar.cmd_of_parse, Grammar.Items.parse_eq, Grammar.items_of_parse,
  Grammar.parseAll_eq_ok, Grammar.parse_follows_grammar
-/
import Plotline.Proofs.ExpressionReading
import Plotline.Proofs.StatementGrammar

namespace Plotline

namespace Grammar

open Command

/-! ### The parts of a command -/

theorem Compares.reads {op : Operator} {comparison : Comparison} (h : Compares op comparison)
    (rest : List Token) : parseComparison (.operator op :: rest) = .ok (comparison, rest) := by
  cases h <;> rfl

/-- A comparison sign cannot continue an expression. -/
theorem Compares.ends {op : Operator} {comparison : Comparison} (h : Compares op comparison)
    (rest : List Token) : Stops extendsExpr (.operator op :: rest) := by
  cases h <;> rfl

theorem Place.reads {ts : List Token} {place : Variable} (h : Place ts place) (rest : List Token) :
    parsePlace (ts ++ .operator .equal :: rest) = .ok (place, .operator .equal :: rest) := by
  cases h with
  | scalar name => rfl
  | element name index =>
      have read := index.reads (.operator .equal :: rest)
      simp only [parsePlace, List.cons_append, List.nil_append, parseName, bind, Except.bind]
      rw [read]

theorem coordinate_reads {ts : List Token} {e : Expression} (h : Expr ts e) (rest : List Token) :
    parseCoordinate (ts ++ .comma :: rest) = .ok (e, rest) := by
  have comma : Stops extendsExpr (.comma :: rest) := rfl
  unfold parseCoordinate
  rw [h.parse_eq comma]
  rfl

theorem Paint.reads {ts : List Token} {color : String} {filled : Bool} (h : Paint ts color filled) :
    Reads parsePaint continuesCommand ts (color, filled) := by
  intro rest stops
  cases h with
  | filled color => rfl
  | plain color =>
      cases rest with
      | nil => rfl
      | cons t rest =>
          cases t with
          | name => cases stops
          | _ => rfl

theorem target_reads {text : String} (digits : text.toList.all Char.isDigit = true)
    (rest : List Token) : parseTarget (.number text :: rest) = .ok (text, rest) := by
  simp only [parseTarget, Label.isTarget, digits]
  rfl

/-! ### Completeness for commands -/

/-- An expression is read up to the end of its command. -/
theorem Expr.reads_command {ts rest : List Token} {e : Expression} (h : Expr ts e)
    (stops : Stops continuesCommand rest) : Expression.parse (ts ++ rest) = .ok (e, rest) :=
  h.parse_eq (stops.mono continuesCommand_of_expr)

/-- Four expressions with commas after them, as the corners of a figure. -/
theorem Coordinates.four {ts : List Token} {a b c d : Expression} (h : Coordinates ts [a, b, c, d]) :
    ∃ us vs ws xs, ts = us ++ .comma :: (vs ++ .comma :: (ws ++ .comma :: (xs ++ [.comma]))) ∧
      Expr us a ∧ Expr vs b ∧ Expr ws c ∧ Expr xs d := by
  cases h with
  | cons first h =>
      cases h with
      | cons second h =>
          cases h with
          | cons third h =>
              cases h with
              | cons fourth h =>
                  cases h
                  exact ⟨_, _, _, _, rfl, first, second, third, fourth⟩

theorem Coordinates.three {ts : List Token} {a b c : Expression} (h : Coordinates ts [a, b, c]) :
    ∃ us vs ws, ts = us ++ .comma :: (vs ++ .comma :: (ws ++ [.comma])) ∧
      Expr us a ∧ Expr vs b ∧ Expr ws c := by
  cases h with
  | cons first h =>
      cases h with
      | cons second h =>
          cases h with
          | cons third h =>
              cases h
              exact ⟨_, _, _, rfl, first, second, third⟩

/-- No expression starts with quoted text, so what is read as an expression is printed as one. -/
theorem parsePrint_of_parse {tokens rest : List Token} {e : Expression}
    (h : Expression.parse tokens = .ok (e, rest)) : parsePrint tokens = .ok (.print e, rest) := by
  unfold parsePrint
  split
  · cases h
  · rw [h]
    rfl

/-- A command is read as what it says where the region allows it. -/
theorem Cmd.reads {ts : List Token} {c : Command} (h : Cmd ts c) {r r' : Region}
    (moves : c.Moves r r') : Reads (parse r) continuesCommand ts c := by
  intro rest stops
  cases h with
  | dim name value =>
      simp only [List.cons_append, List.nil_append, parse, parseWord, parseDim, parseName, parseLength,
        value, bind, Except.bind]
  | drawStart w h =>
      cases moves with
      | start =>
          simp only [List.cons_append, List.append_assoc, parse, parseWord, parseDraw, requireClosed,
            bind, Except.bind]
          rw [coordinate_reads w]
          simp only
          rw [h.reads_command stops]
      | figure isFigure => cases isFigure
      | other _ notDrawing => cases notDrawing
  | drawFinish =>
      cases moves with
      | finish => rfl
      | figure isFigure => cases isFigure
      | other _ notDrawing => cases notDrawing
  | halt => rfl
  | goto digits =>
      simp only [List.cons_append, List.nil_append, parse, parseWord, bind, Except.bind]
      rw [target_reads digits]
  | @branch ts us lhs rhs op comparison text left sign right digits =>
      have thenWord : Stops extendsExpr (.name "THEN" :: .number text :: rest) := rfl
      simp only [List.cons_append, List.append_assoc, List.nil_append, parse, parseWord, parseBranch,
        bind, Except.bind]
      rw [left.parse_eq (sign.ends _)]
      simp only [sign.reads]
      rw [right.parse_eq thenWord]
      simp only [parseThen, target_reads digits]
  | input name => rfl
  | assign target h =>
      simp only [List.cons_append, List.append_assoc, parse, parseWord, parseAssign, bind, Except.bind]
      rw [target.reads]
      simp only [parseEqual]
      rw [h.reads_command stops]
  | print h => exact parsePrint_of_parse (h.reads_command stops)
  | printText text => rfl
  | line corners paint =>
      obtain ⟨us, vs, ws, xs, rfl, first, second, third, fourth⟩ := corners.four
      obtain rfl := moves.opened_of_figure rfl
      simp only [List.cons_append, List.append_assoc, List.nil_append, parse, parseWord, parseLine,
        requireOpened, coordinate_reads first, coordinate_reads second, coordinate_reads third,
        coordinate_reads fourth, paint.reads rest stops, bind, Except.bind]
  | plot circle paint =>
      obtain ⟨us, vs, ws, rfl, first, second, third⟩ := circle.three
      obtain rfl := moves.opened_of_figure rfl
      simp only [List.cons_append, List.append_assoc, List.nil_append, parse, parseWord, parsePlot,
        requireOpened, coordinate_reads first, coordinate_reads second, coordinate_reads third,
        paint.reads rest stops, bind, Except.bind]
  | rectangle corners paint =>
      obtain ⟨us, vs, ws, xs, rfl, first, second, third, fourth⟩ := corners.four
      obtain rfl := moves.opened_of_figure rfl
      simp only [List.cons_append, List.append_assoc, List.nil_append, parse, parseWord, parseRectangle,
        requireOpened, coordinate_reads first, coordinate_reads second, coordinate_reads third,
        coordinate_reads fourth, paint.reads rest stops, bind, Except.bind]

/-! ### Soundness for commands -/

theorem name_of_parse {ts rest : List Token} {name : String}
    (h : parseName ts = .ok (name, rest)) : ts = .name name :: rest := by
  unfold parseName at h
  split at h <;> cases h
  rfl

theorem length_of_parse {ts rest : List Token} {length : Nat}
    (h : parseLength ts = .ok (length, rest)) :
    ∃ text, ts = .number text :: rest ∧ Number.readNatural? text = some length := by
  unfold parseLength at h
  split at h
  · split at h
    · rename_i value
      cases h
      exact ⟨_, rfl, value⟩
    · cases h
  · cases h

theorem target_of_parse {ts rest : List Token} {text : String}
    (h : parseTarget ts = .ok (text, rest)) :
    ts = .number text :: rest ∧ text.toList.all Char.isDigit = true := by
  unfold parseTarget at h
  split at h
  · split at h
    · rename_i digits
      cases h
      exact ⟨rfl, digits⟩
    · cases h
  · cases h

theorem comparison_of_parse {ts rest : List Token} {comparison : Comparison}
    (h : parseComparison ts = .ok (comparison, rest)) :
    ∃ op, ts = .operator op :: rest ∧ Compares op comparison := by
  unfold parseComparison at h
  split at h
  · cases h
    exact ⟨_, rfl, .equal⟩
  · cases h
    exact ⟨_, rfl, .less⟩
  · cases h
    exact ⟨_, rfl, .greater⟩
  · cases h

theorem place_of_parse {ts rest : List Token} {place : Variable}
    (h : parsePlace ts = .ok (place, rest)) : ∃ us, ts = us ++ rest ∧ Place us place := by
  obtain ⟨⟨name, left⟩, named, continued⟩ := bind_eq_ok.1 h
  obtain rfl := name_of_parse named
  simp only at continued
  split at continued
  · obtain ⟨⟨subscript, last⟩, read, done⟩ := bind_eq_ok.1 continued
    cases done
    obtain ⟨token, rfl, index⟩ := index_sound read
    exact ⟨_, rfl, .element name index⟩
  · cases continued
    exact ⟨_, rfl, .scalar name⟩

theorem equal_of_parse {ts rest : List Token} (h : parseEqual ts = .ok ((), rest)) :
    ts = .operator .equal :: rest := by
  unfold parseEqual at h
  split at h <;> cases h
  rfl

theorem comma_of_parse {ts rest : List Token} (h : parseComma ts = .ok ((), rest)) :
    ts = .comma :: rest := by
  unfold parseComma at h
  split at h <;> cases h
  rfl

theorem then_of_parse {ts rest : List Token} (h : parseThen ts = .ok ((), rest)) :
    ts = .name "THEN" :: rest := by
  unfold parseThen at h
  split at h <;> cases h
  rfl

theorem coordinate_of_parse {ts rest : List Token} {e : Expression}
    (h : parseCoordinate ts = .ok (e, rest)) : ∃ us, ts = us ++ .comma :: rest ∧ Expr us e := by
  obtain ⟨⟨e', left⟩, read, continued⟩ := bind_eq_ok.1 h
  obtain ⟨⟨_, last⟩, comma, done⟩ := bind_eq_ok.1 continued
  cases done
  obtain rfl := comma_of_parse comma
  exact expr_of_parse read

theorem paint_of_parse {ts rest : List Token} {color : String} {filled : Bool}
    (h : parsePaint ts = .ok ((color, filled), rest)) :
    ∃ us, ts = us ++ rest ∧ Paint us color filled := by
  unfold parsePaint at h
  split at h
  · cases h
    exact ⟨_, rfl, .filled _⟩
  · cases h
    exact ⟨_, rfl, .plain _⟩
  · cases h

theorem draw_of_parse {r : Region} {ts rest : List Token} {c : Command}
    (h : parseDraw r ts = .ok (c, rest)) : ∃ us, ts = us ++ rest ∧ Cmd (.word .draw :: us) c := by
  unfold parseDraw at h
  split at h
  · obtain ⟨_, _, operands⟩ := bind_eq_ok.1 h
    obtain ⟨⟨width, left⟩, readWidth, continued⟩ := bind_eq_ok.1 operands
    obtain ⟨⟨height, last⟩, readHeight, done⟩ := bind_eq_ok.1 continued
    cases done
    obtain ⟨us, rfl, isWidth⟩ := coordinate_of_parse readWidth
    obtain ⟨vs, rfl, isHeight⟩ := expr_of_parse readHeight
    exact ⟨_, by simp, .drawStart isWidth isHeight⟩
  · obtain ⟨_, _, done⟩ := bind_eq_ok.1 h
    cases done
    exact ⟨_, rfl, .drawFinish⟩
  · cases h

theorem branch_of_parse {ts rest : List Token} {c : Command}
    (h : parseBranch ts = .ok (c, rest)) : ∃ us, ts = us ++ rest ∧ Cmd (.word .branch :: us) c := by
  obtain ⟨⟨lhs, afterLhs⟩, readLhs, continued⟩ := bind_eq_ok.1 h
  obtain ⟨⟨comparison, afterSign⟩, readSign, continued⟩ := bind_eq_ok.1 continued
  obtain ⟨⟨rhs, afterRhs⟩, readRhs, continued⟩ := bind_eq_ok.1 continued
  obtain ⟨⟨_, afterThen⟩, readThen, continued⟩ := bind_eq_ok.1 continued
  obtain ⟨⟨target, last⟩, readTarget, done⟩ := bind_eq_ok.1 continued
  cases done
  obtain ⟨us, rfl, left⟩ := expr_of_parse readLhs
  obtain ⟨op, rfl, sign⟩ := comparison_of_parse readSign
  obtain ⟨vs, rfl, right⟩ := expr_of_parse readRhs
  obtain rfl := then_of_parse readThen
  obtain ⟨rfl, digits⟩ := target_of_parse readTarget
  exact ⟨_, by simp, .branch left sign right digits⟩

theorem assign_of_parse {ts rest : List Token} {c : Command}
    (h : parseAssign ts = .ok (c, rest)) : ∃ us, ts = us ++ rest ∧ Cmd (.word .assign :: us) c := by
  obtain ⟨⟨place, afterPlace⟩, readPlace, continued⟩ := bind_eq_ok.1 h
  obtain ⟨⟨_, afterEqual⟩, readEqual, continued⟩ := bind_eq_ok.1 continued
  obtain ⟨⟨value, last⟩, readValue, done⟩ := bind_eq_ok.1 continued
  cases done
  obtain ⟨us, rfl, target⟩ := place_of_parse readPlace
  obtain rfl := equal_of_parse readEqual
  obtain ⟨vs, rfl, isValue⟩ := expr_of_parse readValue
  exact ⟨_, by simp, .assign target isValue⟩

theorem print_of_parse {ts rest : List Token} {c : Command}
    (h : parsePrint ts = .ok (c, rest)) : ∃ us, ts = us ++ rest ∧ Cmd (.word .print :: us) c := by
  unfold parsePrint at h
  split at h
  · cases h
    exact ⟨_, rfl, .printText _⟩
  · obtain ⟨⟨value, last⟩, read, done⟩ := bind_eq_ok.1 h
    cases done
    obtain ⟨us, rfl, isValue⟩ := expr_of_parse read
    exact ⟨us, rfl, .print isValue⟩

theorem plot_of_parse {r : Region} {ts rest : List Token} {c : Command}
    (h : parsePlot r ts = .ok (c, rest)) : ∃ us, ts = us ++ rest ∧ Cmd (.word .plot :: us) c := by
  obtain ⟨_, _, continued⟩ := bind_eq_ok.1 h
  obtain ⟨⟨x, afterX⟩, readX, continued⟩ := bind_eq_ok.1 continued
  obtain ⟨⟨y, afterY⟩, readY, continued⟩ := bind_eq_ok.1 continued
  obtain ⟨⟨radius, afterRadius⟩, readRadius, continued⟩ := bind_eq_ok.1 continued
  obtain ⟨⟨⟨color, filled⟩, last⟩, readPaint, done⟩ := bind_eq_ok.1 continued
  cases done
  obtain ⟨us, rfl, isX⟩ := coordinate_of_parse readX
  obtain ⟨vs, rfl, isY⟩ := coordinate_of_parse readY
  obtain ⟨ws, rfl, isRadius⟩ := coordinate_of_parse readRadius
  obtain ⟨ps, rfl, paint⟩ := paint_of_parse readPaint
  exact ⟨_, by simp, .plot (.cons isX (.cons isY (.cons isRadius .nil))) paint⟩

/-- Four coordinates read one after the other, as lines and rectangles have them. -/
theorem corners_of_parse {ts us vs ws rest : List Token} {a b c d : Expression}
    (first : parseCoordinate ts = .ok (a, us)) (second : parseCoordinate us = .ok (b, vs))
    (third : parseCoordinate vs = .ok (c, ws)) (fourth : parseCoordinate ws = .ok (d, rest)) :
    ∃ xs, ts = xs ++ rest ∧ Coordinates xs [a, b, c, d] := by
  obtain ⟨_, rfl, isFirst⟩ := coordinate_of_parse first
  obtain ⟨_, rfl, isSecond⟩ := coordinate_of_parse second
  obtain ⟨_, rfl, isThird⟩ := coordinate_of_parse third
  obtain ⟨_, rfl, isFourth⟩ := coordinate_of_parse fourth
  exact ⟨_, by simp, .cons isFirst (.cons isSecond (.cons isThird (.cons isFourth .nil)))⟩

theorem line_of_parse {r : Region} {ts rest : List Token} {c : Command}
    (h : parseLine r ts = .ok (c, rest)) : ∃ us, ts = us ++ rest ∧ Cmd (.word .line :: us) c := by
  obtain ⟨_, _, continued⟩ := bind_eq_ok.1 h
  obtain ⟨⟨x1, left⟩, first, continued⟩ := bind_eq_ok.1 continued
  obtain ⟨⟨y1, left⟩, second, continued⟩ := bind_eq_ok.1 continued
  obtain ⟨⟨x2, left⟩, third, continued⟩ := bind_eq_ok.1 continued
  obtain ⟨⟨y2, left⟩, fourth, continued⟩ := bind_eq_ok.1 continued
  obtain ⟨⟨⟨color, filled⟩, last⟩, readPaint, done⟩ := bind_eq_ok.1 continued
  cases done
  obtain ⟨us, rfl, corners⟩ := corners_of_parse first second third fourth
  obtain ⟨ps, rfl, paint⟩ := paint_of_parse readPaint
  exact ⟨us ++ ps, by simp, .line corners paint⟩

theorem rectangle_of_parse {r : Region} {ts rest : List Token} {c : Command}
    (h : parseRectangle r ts = .ok (c, rest)) :
    ∃ us, ts = us ++ rest ∧ Cmd (.word .rectangle :: us) c := by
  obtain ⟨_, _, continued⟩ := bind_eq_ok.1 h
  obtain ⟨⟨x1, left⟩, first, continued⟩ := bind_eq_ok.1 continued
  obtain ⟨⟨y1, left⟩, second, continued⟩ := bind_eq_ok.1 continued
  obtain ⟨⟨x2, left⟩, third, continued⟩ := bind_eq_ok.1 continued
  obtain ⟨⟨y2, left⟩, fourth, continued⟩ := bind_eq_ok.1 continued
  obtain ⟨⟨⟨color, filled⟩, last⟩, readPaint, done⟩ := bind_eq_ok.1 continued
  cases done
  obtain ⟨us, rfl, corners⟩ := corners_of_parse first second third fourth
  obtain ⟨ps, rfl, paint⟩ := paint_of_parse readPaint
  exact ⟨us ++ ps, by simp, .rectangle corners paint⟩

/-- Whatever is read as a command is one, and the region allows it. -/
theorem cmd_of_parse {r : Region} {ts rest : List Token} {c : Command}
    (h : parse r ts = .ok (c, rest)) :
    ∃ us, ts = us ++ rest ∧ Cmd us c ∧ c.Moves r (c.regionAfter r) := by
  have moves := parse_moves h
  have found : ∃ us, ts = us ++ rest ∧ Cmd us c := by
    unfold parse at h
    split at h
    · rename_i word operands
      have prepend : (∃ us, operands = us ++ rest ∧ Cmd (.word word :: us) c) →
          ∃ us, .word word :: operands = us ++ rest ∧ Cmd us c := by
        rintro ⟨us, rfl, isCommand⟩
        exact ⟨_, rfl, isCommand⟩
      apply prepend
      cases word with
      | draw => exact draw_of_parse h
      | branch => exact branch_of_parse h
      | assign => exact assign_of_parse h
      | line => exact line_of_parse h
      | plot => exact plot_of_parse h
      | print => exact print_of_parse h
      | rectangle => exact rectangle_of_parse h
      | halt =>
          cases h
          exact ⟨[], rfl, .halt⟩
      | dim =>
          obtain ⟨⟨name, left⟩, readName, continued⟩ := bind_eq_ok.1 h
          obtain ⟨⟨length, last⟩, readLength, done⟩ := bind_eq_ok.1 continued
          cases done
          obtain rfl := name_of_parse readName
          obtain ⟨text, rfl, value⟩ := length_of_parse readLength
          exact ⟨_, rfl, .dim name value⟩
      | goto =>
          obtain ⟨⟨target, last⟩, readTarget, done⟩ := bind_eq_ok.1 h
          cases done
          obtain ⟨rfl, digits⟩ := target_of_parse readTarget
          exact ⟨_, rfl, .goto digits⟩
      | input =>
          obtain ⟨⟨name, last⟩, readName, done⟩ := bind_eq_ok.1 h
          cases done
          obtain rfl := name_of_parse readName
          exact ⟨_, rfl, .input name⟩
    · cases h
  obtain ⟨us, split, isCommand⟩ := found
  exact ⟨us, split, isCommand, moves⟩

/-! ### Whole token lists -/

open Statement (parseItems parseAll)

/-- The list ends, or the line does. -/
def IsEnd : List Token → Prop
  | [] => True
  | t :: _ => t = .endOfLine

theorem parseItems_end (fuel : Nat) (current : Option Label) (r : Region) {rest : List Token}
    (ends : IsEnd rest) : parseItems fuel current r rest = .ok ([], r) := by
  cases rest with
  | nil => simp only [parseItems]
  | cons t rest =>
      cases ends
      simp only [parseItems]

theorem parseItems_command {fuel : Nat} {l : Label} {r : Region} {word : Word} {ts rest : List Token}
    {c : Command} (read : parse r (.word word :: ts) = .ok (c, rest)) :
    parseItems (fuel + 1) (some l) r (.word word :: ts) =
      (do
        let (more, last) ← parseItems fuel (some l) (c.regionAfter r) rest
        .ok (⟨l, c⟩ :: more, last)) := by
  simp only [parseItems, read]

/-- The next item of a list, or its end, does not continue a command. -/
theorem Items.stops {current : Option Label} {r last : Region} {ts rest : List Token}
    {statements : List Statement} (h : Items current r ts statements last) (ends : IsEnd rest) :
    Stops continuesCommand (ts ++ rest) := by
  cases h with
  | nil =>
      cases rest with
      | nil => trivial
      | cons t rest =>
          cases ends
          rfl
  | label => rfl
  | command head =>
      obtain ⟨word, us, rfl, _⟩ := head.starts
      rfl

/-- Labels and commands are read, up to the end, as what they say. -/
theorem Items.parse_eq {current : Option Label} {r last : Region} {ts rest : List Token}
    {statements : List Statement} (h : Items current r ts statements last) (ends : IsEnd rest)
    {fuel : Nat} (enough : ts.length ≤ fuel) :
    parseItems fuel current r (ts ++ rest) = .ok (statements, last) := by
  induction h generalizing fuel with
  | nil current r => exact parseItems_end fuel current r ends
  | label current l more ih =>
      cases fuel with
      | zero => simp at enough
      | succ fuel =>
          simp only [List.cons_append, parseItems]
          exact ih (Nat.le_of_succ_le_succ enough)
  | command head moves more ih =>
      have read := head.reads moves _ (more.stops ends)
      obtain ⟨word, us, rfl, _⟩ := head.starts
      cases fuel with
      | zero => simp at enough
      | succ fuel =>
          simp only [List.length_append, List.length_cons] at enough
          rw [List.cons_append] at read
          rw [List.append_assoc, List.cons_append, parseItems_command read, moves.regionAfter_eq,
            ih (by omega)]
          rfl

/-- Whatever is read as statements is a sequence of labels and commands up to the end. -/
theorem items_of_parse {fuel : Nat} {current : Option Label} {r last : Region} {ts : List Token}
    {statements : List Statement} (enough : ts.length ≤ fuel)
    (h : parseItems fuel current r ts = .ok (statements, last)) :
    ∃ us rest, ts = us ++ rest ∧ IsEnd rest ∧ Items current r us statements last := by
  fun_induction parseItems fuel current r ts generalizing statements with
  | case1 =>
      cases h
      exact ⟨[], [], rfl, trivial, .nil _ _⟩
  | case2 fuel current r rest =>
      cases h
      exact ⟨[], _, rfl, rfl, .nil _ _⟩
  | case3 current r ts nonempty notEnd =>
      cases ts with
      | nil => exact absurd rfl nonempty
      | cons t ts => simp at enough
  | case4 fuel current r l rest ih =>
      obtain ⟨us, left, rfl, ends, items⟩ := ih (Nat.le_of_succ_le_succ enough) h
      exact ⟨.label l :: us, left, rfl, ends, .label current l items⟩
  | case5 => cases h
  | case6 => cases h
  | case7 fuel r tokens label _ _ _ command rest read ih =>
      obtain ⟨⟨more, region⟩, others, done⟩ := bind_eq_ok.1 h
      cases done
      obtain ⟨us, rfl, isCommand, moves⟩ := cmd_of_parse read
      obtain ⟨word, vs, rfl, _⟩ := isCommand.starts
      simp only [List.length_append, List.length_cons] at enough
      obtain ⟨ws, left, rfl, ends, items⟩ := ih (by omega) others
      exact ⟨_, left, by simp, ends, .command isCommand moves items⟩

/-- A sequence of labels and commands says one thing. -/
theorem Items.unique {current : Option Label} {r last last' : Region} {ts : List Token}
    {statements statements' : List Statement} (h : Items current r ts statements last)
    (h' : Items current r ts statements' last') : statements = statements' ∧ last = last' := by
  have ends : IsEnd [] := trivial
  have read := h.parse_eq ends (Nat.le_refl _)
  rw [h'.parse_eq ends (Nat.le_refl _)] at read
  cases read
  exact ⟨rfl, rfl⟩

/-- Tokens other than the end of the line. -/
def untilEnd (ts : List Token) : List Token :=
  ts.takeWhile (· != .endOfLine)

theorem untilEnd_append {us rest : List Token} (inLine : .endOfLine ∉ us) (ends : IsEnd rest) :
    untilEnd (us ++ rest) = us := by
  have all : ∀ t ∈ us, (t != .endOfLine) = true := by
    intro t mem
    simp only [bne_iff_ne]
    rintro rfl
    exact inLine mem
  have none : rest.takeWhile (· != .endOfLine) = [] := by
    cases rest with
    | nil => rfl
    | cons t rest =>
        cases ends
        rfl
  rw [untilEnd, List.takeWhile_append_of_pos all, none, List.append_nil]

theorem untilEnd_split (ts : List Token) : ∃ rest, ts = untilEnd ts ++ rest ∧ IsEnd rest := by
  refine ⟨ts.dropWhile (· != .endOfLine), (List.takeWhile_append_dropWhile).symm, ?_⟩
  induction ts with
  | nil => trivial
  | cons t ts ih =>
      rw [List.dropWhile_cons]
      split
      · exact ih
      · rename_i isEnd
        simpa [IsEnd] using isEnd

/-- A token list is read as what its labels and commands say, up to the end of its line. -/
theorem parseAll_eq_ok {r last : Region} {ts : List Token} {statements : List Statement} :
    parseAll r ts = .ok (statements, last) ↔ Items none r (untilEnd ts) statements last := by
  constructor
  · intro h
    obtain ⟨us, rest, rfl, ends, items⟩ := items_of_parse (Nat.le_refl _) h
    rw [untilEnd_append items.endOfLine_not_mem ends]
    exact items
  · intro h
    obtain ⟨rest, split, ends⟩ := untilEnd_split ts
    have read := h.parse_eq ends (List.takeWhile_prefix _).length_le
    rw [← split] at read
    exact read

/-- A token list is read exactly if it is, up to the end of its line, a sequence of labels and commands, and
    as the statements and the region that the sequence says. There is only one reading of a sequence, and
    only one tree for each expression in it. -/
theorem parse_follows_grammar (r : Region) (ts : List Token) :
    (∀ statements last, parseAll r ts = .ok (statements, last) ↔
      Items none r (ts.takeWhile (· != .endOfLine)) statements last) ∧
    (∀ us statements last statements' last', Items none r us statements last →
      Items none r us statements' last' → statements = statements' ∧ last = last') ∧
    ∀ us e e', Expr us e → Expr us e' → e = e' := by
  refine ⟨fun statements last => parseAll_eq_ok, ?_, ?_⟩
  · intro us statements last statements' last' h h'
    exact h.unique h'
  · intro us e e' h h'
    exact h.unique h'

end Grammar

end Plotline

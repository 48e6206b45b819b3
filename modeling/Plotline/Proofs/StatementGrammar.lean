/-
Module: Plotline.Proofs.StatementGrammar
Layer: Proofs
Purpose: The grammar of commands and of token lists, as relations between tokens and what they say. A token
  list is a sequence of labels and commands; a command stands under the last label before it, where the rule
  of drawing regions allows it. No phrase of the grammar reaches past the end of a line.
Main exports: Grammar.Cmd, Grammar.Items, Grammar.Cmd.starts, Grammar.Items.endOfLine_not_mem
-/
import Plotline.Proofs.ExpressionGrammar
import Plotline.Proofs.Region

namespace Plotline

namespace Grammar

/-- The sign of a comparison. -/
inductive Compares : Operator → Comparison → Prop where
  | equal : Compares .equal .equal
  | less : Compares .less .less
  | greater : Compares .greater .greater

/-- What an assignment writes to. -/
inductive Place : List Token → Variable → Prop where
  | scalar (name : String) : Place [.name name] (.scalar name)
  | element (name : String) {token : Token} {subscript : Subscript} (index : Index token subscript) :
      Place [.name name, .openBracket, token, .closeBracket] (.element name subscript)

/-- Expressions, each of them with a comma after it. -/
inductive Coordinates : List Token → List Expression → Prop where
  | nil : Coordinates [] []
  | cons {ts us : List Token} {e : Expression} {es : List Expression} (head : Expr ts e)
      (tail : Coordinates us es) : Coordinates (ts ++ .comma :: us) (e :: es)

/-- A colour, and the word that marks a figure as filled. -/
inductive Paint : List Token → String → Bool → Prop where
  | plain (color : String) : Paint [.name color] color false
  | filled (color : String) : Paint [.name color, .name "FILL"] color true

/-- The commands. The mark of a filled figure is allowed after a line too, where it means nothing. -/
inductive Cmd : List Token → Command → Prop where
  | dim (name : String) {text : String} {length : Nat}
      (value : Number.readNatural? text = some length) :
      Cmd [.word .dim, .name name, .number text] (.dim name length)
  | drawStart {ts us : List Token} {width height : Expression} (w : Expr ts width)
      (h : Expr us height) :
      Cmd (.word .draw :: .name "START" :: (ts ++ .comma :: us)) (.drawStart width height)
  | drawFinish : Cmd [.word .draw, .name "FINISH"] .drawFinish
  | halt : Cmd [.word .halt] .halt
  | goto {text : String} (digits : text.toList.all Char.isDigit = true) :
      Cmd [.word .goto, .number text] (.goto text)
  | branch {ts us : List Token} {lhs rhs : Expression} {op : Operator} {comparison : Comparison}
      {text : String} (left : Expr ts lhs) (sign : Compares op comparison) (right : Expr us rhs)
      (digits : text.toList.all Char.isDigit = true) :
      Cmd (.word .branch :: (ts ++ .operator op :: (us ++ [.name "THEN", .number text])))
        (.branch lhs comparison rhs text)
  | input (name : String) : Cmd [.word .input, .name name] (.input name)
  | assign {ts us : List Token} {place : Variable} {value : Expression} (target : Place ts place)
      (h : Expr us value) : Cmd (.word .assign :: (ts ++ .operator .equal :: us)) (.assign place value)
  | print {ts : List Token} {value : Expression} (h : Expr ts value) :
      Cmd (.word .print :: ts) (.print value)
  | printText (text : String) : Cmd [.word .print, .quoted text] (.printText text)
  | line {ts us : List Token} {x1 y1 x2 y2 : Expression} {color : String} {filled : Bool}
      (corners : Coordinates ts [x1, y1, x2, y2]) (paint : Paint us color filled) :
      Cmd (.word .line :: (ts ++ us)) (.line x1 y1 x2 y2 color)
  | plot {ts us : List Token} {x y radius : Expression} {color : String} {filled : Bool}
      (circle : Coordinates ts [x, y, radius]) (paint : Paint us color filled) :
      Cmd (.word .plot :: (ts ++ us)) (.plot x y radius color filled)
  | rectangle {ts us : List Token} {x1 y1 x2 y2 : Expression} {color : String} {filled : Bool}
      (corners : Coordinates ts [x1, y1, x2, y2]) (paint : Paint us color filled) :
      Cmd (.word .rectangle :: (ts ++ us)) (.rectangle x1 y1 x2 y2 color filled)

/-- Labels and commands, after a label if there was one, in a region. A command needs a label before it and
    stands under the last one; it is allowed in the region that the commands before it lead to. -/
inductive Items : Option Label → Region → List Token → List Statement → Region → Prop where
  | nil (current : Option Label) (r : Region) : Items current r [] [] r
  | label (current : Option Label) (l : Label) {r last : Region} {ts : List Token}
      {statements : List Statement} (more : Items (some l) r ts statements last) :
      Items current r (.label l :: ts) statements last
  | command {l : Label} {r r' last : Region} {ts us : List Token} {c : Command}
      {statements : List Statement} (head : Cmd ts c) (moves : c.Moves r r')
      (more : Items (some l) r' us statements last) :
      Items (some l) r (ts ++ us) (⟨l, c⟩ :: statements) last

/-! ### Where a command ends -/

theorem continuesCommand_of_expr (t : Token) (h : extendsExpr t = true) :
    continuesCommand t = true := by
  cases t with
  | label => cases h
  | word => cases h
  | endOfLine => cases h
  | _ => rfl

theorem Coordinates.continues {ts : List Token} {es : List Expression} (h : Coordinates ts es) :
    ∀ t ∈ ts, continuesCommand t = true := by
  induction h with
  | nil => simp
  | cons head _ ih => exact forall_mem_join head.continues rfl ih

theorem Paint.continues {ts : List Token} {color : String} {filled : Bool} (h : Paint ts color filled) :
    ∀ t ∈ ts, continuesCommand t = true := by
  cases h <;> simp [continuesCommand]

theorem Place.continues {ts : List Token} {place : Variable} (h : Place ts place) :
    ∀ t ∈ ts, continuesCommand t = true := by
  cases h with
  | scalar => simp [continuesCommand]
  | element name index => cases index <;> simp [continuesCommand]

/-- A command starts with its word, and no other token of it could start an item or end the line. -/
theorem Cmd.starts {ts : List Token} {c : Command} (h : Cmd ts c) :
    ∃ word us, ts = .word word :: us ∧ ∀ t ∈ us, continuesCommand t = true := by
  cases h with
  | dim | drawFinish | halt | goto | input | printText =>
      exact ⟨_, _, rfl, by simp [continuesCommand]⟩
  | drawStart w h =>
      exact ⟨_, _, rfl, List.forall_mem_cons.2 ⟨rfl, forall_mem_join w.continues rfl h.continues⟩⟩
  | branch left sign right digits =>
      refine ⟨_, _, rfl, forall_mem_join left.continues rfl ?_⟩
      exact List.forall_mem_append.2 ⟨right.continues, by simp [continuesCommand]⟩
  | assign target h => exact ⟨_, _, rfl, forall_mem_join target.continues rfl h.continues⟩
  | print h => exact ⟨_, _, rfl, h.continues⟩
  | line corners paint | plot corners paint | rectangle corners paint =>
      exact ⟨_, _, rfl, List.forall_mem_append.2 ⟨corners.continues, paint.continues⟩⟩

theorem Cmd.endOfLine_not_mem {ts : List Token} {c : Command} (h : Cmd ts c) : .endOfLine ∉ ts := by
  rcases h.starts with ⟨word, us, rfl, continues⟩
  intro mem
  rcases List.mem_cons.1 mem with same | mem
  · cases same
  · cases continues _ mem

theorem Items.endOfLine_not_mem {current : Option Label} {r last : Region} {ts : List Token}
    {statements : List Statement} (h : Items current r ts statements last) : .endOfLine ∉ ts := by
  induction h with
  | nil => simp
  | label _ _ _ ih => simp [ih]
  | command head _ _ ih => simp [head.endOfLine_not_mem, ih]

end Grammar

end Plotline

/-
Module: Plotline.Proofs.PrintedExpression
Layer: Proofs
Purpose: The text of an expression says that expression. `Expression.written` is the token list the text is
  cut into; `Expression.Printable` collects what an expression has to satisfy for that: its names are
  names, its literals read back, and only calls that may have no arguments have none. Of a printable
  expression the written tokens are one atom of the grammar (`Expression.Printable.atom`) and hold no sign. An
  expression that was read from tokens is printable as far as they are.
Main exports: Expression.written, Expression.literals, Expression.Printable, Grammar.Expr.printable,
  Expression.Printable.atom, Expression.Printable.writes, Expression.written_expands
-/
import Plotline.Proofs.NumberText
import Plotline.Proofs.SignExpansion
import Plotline.Proofs.StatementGrammar

namespace Plotline

/-! ### Tokens -/

/-- The token of a subscript. -/
def Subscript.token : Subscript → Token
  | literal x => .number (Number.text x)
  | name s => .name s

/-- The tokens of a variable. -/
def Variable.written : Variable → List Token
  | scalar s => [.name s]
  | element s i => [.name s, .openBracket, i.token, .closeBracket]

/-- The operator of an operation. -/
def Arithmetic.operator : Arithmetic → Operator
  | power => .caret
  | times => .times
  | divide => .divide
  | plus => .plus
  | minus => .minus

mutual

/-- The tokens of an expression. Every operation has its own parentheses. -/
def Expression.written : Expression → List Token
  | .number x => [.number (Number.text x)]
  | .var place => place.written
  | .call function arguments =>
      .ofWord function :: .openParen :: (Expression.writtenList arguments ++ [.closeParen])
  | .binary op lhs rhs =>
      .openParen :: (lhs.written ++ .operator op.operator :: (rhs.written ++ [.closeParen]))

/-- The tokens of several expressions, with commas between them. -/
def Expression.writtenList : List Expression → List Token
  | [] => []
  | [e] => e.written
  | e :: next :: rest => e.written ++ .comma :: Expression.writtenList (next :: rest)

end

/-! ### Literals -/

/-- The literal in a subscript. -/
def Subscript.literals : Subscript → List Float
  | literal x => [x]
  | name _ => []

/-- The literals in a variable. -/
def Variable.literals : Variable → List Float
  | scalar _ => []
  | element _ i => i.literals

mutual

/-- The literals in an expression. -/
def Expression.literals : Expression → List Float
  | .number x => [x]
  | .var place => place.literals
  | .call _ arguments => Expression.literalsOf arguments
  | .binary _ lhs rhs => lhs.literals ++ rhs.literals

/-- The literals in several expressions. -/
def Expression.literalsOf : List Expression → List Float
  | [] => []
  | e :: rest => e.literals ++ Expression.literalsOf rest

end

/-! ### What can be printed -/

/-- A subscript that holds names and literals of given kinds. -/
def Subscript.Printable (name : String → Prop) (literal : Float → Prop) : Subscript → Prop
  | .literal x => literal x
  | .name s => name s

/-- A variable that holds names and literals of given kinds. -/
def Variable.Printable (name : String → Prop) (literal : Float → Prop) : Variable → Prop
  | .scalar s => name s
  | .element s i => name s ∧ i.Printable name literal

/-- An expression that holds names and literals of given kinds, and in which a built-in function other than
    the random one has arguments. -/
inductive Expression.Printable (name : String → Prop) (literal : Float → Prop) : Expression → Prop where
  | number {x : Float} (h : literal x) : Printable name literal (.number x)
  | var {place : Variable} (h : place.Printable name literal) : Printable name literal (.var place)
  | call {s : String} {es : List Expression} (h : name s)
      (given : ∀ e ∈ es, Printable name literal e) : Printable name literal (.call s es)
  | random : Printable name literal (.call Builtin.rnd.text [])
  | builtin (f : Builtin) {es : List Expression} (nonempty : es ≠ [])
      (given : ∀ e ∈ es, Printable name literal e) : Printable name literal (.call f.text es)
  | binary {op : Arithmetic} {lhs rhs : Expression} (left : Printable name literal lhs)
      (right : Printable name literal rhs) : Printable name literal (.binary op lhs rhs)

/-- The literal was read from a token of a given kind, or stands for the zero from which a negation
    subtracts. -/
def Number.IsReadFrom (allowed : Token → Prop) (x : Float) : Prop :=
  x = 0.0 ∨ ∃ text, allowed (.number text) ∧ Number.read? text = some x

namespace Grammar

variable {allowed : Token → Prop}

theorem Index.printable {token : Token} {i : Subscript} (h : Index token i) (all : allowed token) :
    i.Printable (fun s => allowed (.name s)) (Number.IsReadFrom allowed) := by
  cases h with
  | literal value => exact Or.inr ⟨_, all, value⟩
  | name s => exact all

theorem printable_negation {e : Expression}
    (h : e.Printable (fun s => allowed (.name s)) (Number.IsReadFrom allowed)) :
    (negation e).Printable (fun s => allowed (.name s)) (Number.IsReadFrom allowed) :=
  .binary (.number (Or.inl rfl)) h

/-- Tokens of a given kind around an operator. -/
theorem forall_mem_sides {ts us : List Token} {t : Token} (all : ∀ u ∈ ts ++ t :: us, allowed u) :
    (∀ u ∈ ts, allowed u) ∧ ∀ u ∈ us, allowed u := by
  rcases List.forall_mem_append.1 all with ⟨left, right⟩
  exact ⟨left, (List.forall_mem_cons.1 right).2⟩

mutual

/-- An expression that was read from tokens of a given kind holds names and literals of that kind. -/
theorem Expr.printable : ∀ {ts : List Token} {e : Expression}, Expr ts e → (∀ t ∈ ts, allowed t) →
    e.Printable (fun s => allowed (.name s)) (Number.IsReadFrom allowed)
  | _, _, .term h, all => Term.printable h all
  | _, _, .plus left right, all | _, _, .minus left right, all =>
      have sides := forall_mem_sides all
      .binary (Expr.printable left sides.1) (Term.printable right sides.2)

theorem Term.printable : ∀ {ts : List Token} {e : Expression}, Term ts e → (∀ t ∈ ts, allowed t) →
    e.Printable (fun s => allowed (.name s)) (Number.IsReadFrom allowed)
  | _, _, .power h, all => Power.printable h all
  | _, _, .times left right, all | _, _, .divide left right, all =>
      have sides := forall_mem_sides all
      .binary (Term.printable left sides.1) (Power.printable right sides.2)

theorem Power.printable : ∀ {ts : List Token} {e : Expression}, Power ts e → (∀ t ∈ ts, allowed t) →
    e.Printable (fun s => allowed (.name s)) (Number.IsReadFrom allowed)
  | _, _, .chain h, all => Chain.printable h all
  | _, _, .negated h, all => printable_negation (Power.printable h (List.forall_mem_cons.1 all).2)
  | _, _, .raised left right, all =>
      have sides := forall_mem_sides all
      .binary (Chain.printable left sides.1)
        (printable_negation (Power.printable right (List.forall_mem_cons.1 sides.2).2))

theorem Chain.printable : ∀ {ts : List Token} {e : Expression}, Chain ts e → (∀ t ∈ ts, allowed t) →
    e.Printable (fun s => allowed (.name s)) (Number.IsReadFrom allowed)
  | _, _, .atom h, all => Atom.printable h all
  | _, _, .raised left right, all =>
      have sides := forall_mem_sides all
      .binary (Chain.printable left sides.1) (Atom.printable right sides.2)

theorem Atom.printable : ∀ {ts : List Token} {e : Expression}, Atom ts e → (∀ t ∈ ts, allowed t) →
    e.Printable (fun s => allowed (.name s)) (Number.IsReadFrom allowed)
  | _, _, .number value, all => .number (Or.inr ⟨_, all _ (by simp), value⟩)
  | _, _, .scalar _, all => .var (all _ (by simp))
  | _, _, .element _ index, all => .var ⟨all _ (by simp), index.printable (all _ (by simp))⟩
  | _, _, .emptyCall _, all => .call (all _ (by simp)) (by simp)
  | _, _, .call _ given, all =>
      .call (all _ (by simp)) (Arguments.printable given fun t mem => all t (by simp [mem])).2
  | _, _, .emptyRandom, _ => .random
  | _, _, .builtin f given, all =>
      have printed := Arguments.printable given fun t mem => all t (by simp [mem])
      .builtin f printed.1 printed.2
  | _, _, .group inner, all => Expr.printable inner fun t mem => all t (by simp [mem])

theorem Arguments.printable : ∀ {ts : List Token} {es : List Expression}, Arguments ts es →
    (∀ t ∈ ts, allowed t) →
    es ≠ [] ∧ ∀ e ∈ es, e.Printable (fun s => allowed (.name s)) (Number.IsReadFrom allowed)
  | _, _, .single h, all => ⟨by simp, by simpa using Expr.printable h all⟩
  | _, _, .cons head tail, all =>
      ⟨by simp, List.forall_mem_cons.2 ⟨Expr.printable head (forall_mem_sides all).1,
        (Arguments.printable tail (forall_mem_sides all).2).2⟩⟩

end

end Grammar

/-- The text of the literal is digits and points that read back. -/
structure Number.IsLiteral (x : Float) : Prop where
  numerals : Token.IsNumerals (Number.text x)
  reads : Number.read? (Number.text x) = some x

namespace Expression

theorem mem_literalsOf {es : List Expression} {e : Expression} (mem : e ∈ es) :
    e.literals ⊆ literalsOf es := by
  induction es with
  | nil => cases mem
  | cons first rest ih =>
      rw [literalsOf]
      rcases List.mem_cons.1 mem with rfl | mem
      · exact List.subset_append_left _ _
      · exact List.subset_append_of_subset_right _ (ih mem)

theorem Printable.mono {name : String → Prop} {literal wider : Float → Prop} {e : Expression}
    (h : e.Printable name literal) (widens : ∀ x ∈ e.literals, literal x → wider x) :
    e.Printable name wider := by
  induction h with
  | number h => exact .number (widens _ (by simp [literals]) h)
  | @var place h =>
      cases place with
      | scalar => exact .var h
      | element s i =>
          cases i with
          | name => exact .var h
          | literal x =>
              exact .var ⟨h.1, widens x (by simp [literals, Variable.literals, Subscript.literals]) h.2⟩
  | call h _ ih => exact .call h fun e mem => ih e mem fun x inner => widens x (mem_literalsOf mem inner)
  | random => exact .random
  | builtin f nonempty _ ih =>
      exact .builtin f nonempty fun e mem => ih e mem fun x inner => widens x (mem_literalsOf mem inner)
  | binary _ _ left right =>
      exact .binary (left fun x mem => widens x (List.mem_append_left _ mem))
        (right fun x mem => widens x (List.mem_append_right _ mem))

theorem written_ne_nil (e : Expression) : e.written ≠ [] := by
  cases e with
  | var place => cases place <;> simp [written, Variable.written]
  | _ => simp [written]

theorem writtenList_ne_nil {es : List Expression} (h : es ≠ []) : writtenList es ≠ [] := by
  cases es with
  | nil => exact absurd rfl h
  | cons e rest =>
      cases rest with
      | nil => exact written_ne_nil e
      | cons => simp [writtenList]

end Expression

/-! ### The grammar reads what is written -/

namespace Grammar

theorem Atom.expr {ts : List Token} {e : Expression} (h : Atom ts e) : Expr ts e :=
  .term (.power (.chain (.atom h)))

/-- Two atoms and an operator between them are the operation. -/
theorem Atom.binary (op : Arithmetic) {ts us : List Token} {lhs rhs : Expression} (left : Atom ts lhs)
    (right : Atom us rhs) : Expr (ts ++ .operator op.operator :: us) (.binary op lhs rhs) := by
  cases op with
  | power => exact .term (.power (.chain (.raised (.atom left) right)))
  | times => exact .term (.times (.power (.chain (.atom left))) (.chain (.atom right)))
  | divide => exact .term (.divide (.power (.chain (.atom left))) (.chain (.atom right)))
  | plus => exact .plus left.expr (.power (.chain (.atom right)))
  | minus => exact .minus left.expr (.power (.chain (.atom right)))

theorem arguments_writtenList : ∀ {es : List Expression}, es ≠ [] →
    (∀ e ∈ es, Atom e.written e) → Arguments (Expression.writtenList es) es
  | [], nonempty, _ => absurd rfl nonempty
  | [e], _, atoms => .single (atoms e (by simp)).expr
  | e :: next :: rest, _, atoms =>
      .cons (atoms e (by simp)).expr
        (arguments_writtenList (by simp) fun e mem => atoms e (List.mem_cons_of_mem _ mem))

theorem index_token {name : String → Prop} {i : Subscript} (h : i.Printable name Number.IsLiteral) :
    Index i.token i := by
  cases i with
  | literal x => exact .literal h.reads
  | name s => exact .name s

end Grammar

namespace Expression

variable {name : String → Prop} {e : Expression}

/-- The tokens of a printable expression are one atom, which says the expression. -/
theorem Printable.atom (h : e.Printable name Number.IsLiteral) (named : ∀ s, name s → Token.IsName s) :
    Grammar.Atom e.written e := by
  induction h with
  | number h => exact .number h.reads
  | @var place h =>
      cases place with
      | scalar s => exact .scalar s
      | element s i => exact .element s (Grammar.index_token h.2)
  | @call s es h _ ih =>
      rw [written, Token.ofWord_of_notKeyword (named s h).notKeyword]
      cases es with
      | nil => exact .emptyCall s
      | cons => exact .call s (Grammar.arguments_writtenList (by simp) ih)
  | random => exact .emptyRandom
  | builtin f nonempty _ ih =>
      rw [written, Token.ofWord_builtin]
      exact .builtin f (Grammar.arguments_writtenList nonempty ih)
  | @binary op _ _ _ _ left right =>
      have inner := Grammar.Atom.group (left.binary op right)
      rw [written]
      simpa using inner

end Expression

/-! ### The text is cut into what is written -/

theorem Subscript.writes {name : String → Prop} {i : Subscript}
    (h : i.Printable name Number.IsLiteral) (named : ∀ s, name s → Token.IsName s) :
    Token.Writes i.text.toList [i.token] := by
  cases i with
  | literal x => exact .token (t := .number (Number.text x)) h.numerals
  | name s => exact .token (t := .name s) (named s h)

theorem Variable.writes {name : String → Prop} {place : Variable}
    (h : place.Printable name Number.IsLiteral) (named : ∀ s, name s → Token.IsName s) :
    Token.Writes place.text.toList place.written := by
  cases place with
  | scalar s => exact .token (t := .name s) (named s h)
  | element s i =>
      have close : Token.Writes [']'] [.closeBracket] := .token (t := .closeBracket) trivial
      have index := (Subscript.writes h.2 named).append rfl close
      have brackets : Token.Writes ('[' :: (i.text.toList ++ [']']))
          [.openBracket, i.token, .closeBracket] :=
        index.mark (t := .openBracket) trivial rfl
      have whole := (Token.Writes.token (t := .name s) (named s h.1)).append rfl brackets
      simpa [Variable.text, Variable.written, Token.text] using whole

namespace Expression

variable {name : String → Prop} {e : Expression}

/-- A token and a pair of parentheses after it, with nothing between them or with a text. -/
theorem writes_parens (function : Token) (written : function.IsWritten) {cs : List Char} {ts : List Token}
    (inner : cs = [] ∧ ts = [] ∨ Token.Writes cs ts) :
    Token.Writes (function.text.toList ++ '(' :: (cs ++ [')']))
      (function :: .openParen :: (ts ++ [.closeParen])) := by
  have close : Token.Writes [')'] [.closeParen] := .token (t := .closeParen) trivial
  have rest : Token.Writes (cs ++ [')']) (ts ++ [.closeParen]) := by
    rcases inner with ⟨rfl, rfl⟩ | inner
    · exact close
    · exact inner.append rfl close
  have parens : Token.Writes ('(' :: (cs ++ [')'])) (.openParen :: (ts ++ [.closeParen])) :=
    rest.mark (t := .openParen) trivial rfl
  exact (Token.Writes.token written).append rfl parens

theorem writes_list : ∀ {es : List Expression}, es ≠ [] →
    (∀ e ∈ es, Token.Writes e.text.toList e.written) →
    Token.Writes (", ".intercalate (texts es)).toList (writtenList es)
  | [], nonempty, _ => absurd rfl nonempty
  | [e], _, all => by
      simpa [texts, writtenList] using all e (by simp)
  | e :: next :: rest, _, all => by
      have others : Token.Writes (", ".intercalate (texts (next :: rest))).toList
          (writtenList (next :: rest)) :=
        writes_list (by simp) fun e mem => all e (List.mem_cons_of_mem _ mem)
      have both := (all e (by simp)).listed others (writtenList_ne_nil (by simp))
      rw [texts, texts, String.intercalate_cons_cons]
      simpa [texts, writtenList] using both

theorem writes_arguments {es : List Expression} (all : ∀ e ∈ es, Token.Writes e.text.toList e.written) :
    (", ".intercalate (texts es)).toList = [] ∧ writtenList es = [] ∨
      Token.Writes (", ".intercalate (texts es)).toList (writtenList es) := by
  cases es with
  | nil => exact Or.inl ⟨rfl, rfl⟩
  | cons => exact Or.inr (writes_list (by simp) all)

/-- The text of a printable expression is cut into the tokens that are written for it. -/
theorem Printable.writes (h : e.Printable name Number.IsLiteral)
    (named : ∀ s, name s → Token.IsName s) : Token.Writes e.text.toList e.written := by
  induction h with
  | @number x h => exact .token (t := .number (Number.text x)) h.numerals
  | var h => exact Variable.writes h named
  | @call s es h _ ih =>
      have whole := writes_parens (.name s) (named s h) (writes_arguments ih)
      rw [written, Token.ofWord_of_notKeyword (named s h).notKeyword]
      simpa [text, Token.text] using whole
  | random =>
      have whole := writes_parens (.builtin .rnd) trivial (Or.inl ⟨rfl, rfl⟩)
      rw [written, Token.ofWord_builtin]
      simpa [text, Token.text, texts, writtenList] using whole
  | builtin f nonempty _ ih =>
      have whole := writes_parens (.builtin f) trivial (writes_arguments ih)
      rw [written, Token.ofWord_builtin]
      simpa [text, Token.text] using whole
  | @binary op lhs rhs _ _ left right =>
      have close : Token.Writes [')'] [.closeParen] := .token (t := .closeParen) trivial
      have second := (Token.Writes.token (t := .operator op.operator) trivial).spaced
        (right.append rfl close) (by simp)
      have whole := (left.spaced second (by simp)).mark (t := .openParen) trivial rfl
      have sign : op.text = (Token.operator op.operator).text := by cases op <;> rfl
      have chars : (Expression.binary op lhs rhs).text.toList = Token.openParen.text.toList ++
          (lhs.text.toList ++ ' ' :: ((Token.operator op.operator).text.toList ++
            ' ' :: (rhs.text.toList ++ [')']))) := by
        simp [text, sign, Token.text]
      rw [chars]
      exact whole

/-! ### No sign, balanced, and no other names -/

/-- The token of a function's name is no operator and no mark. -/
theorem ofWord_ne (s : String) {t : Token} (h : t.endsItself = true) : Token.ofWord s ≠ t := by
  rintro rfl
  rcases Token.ofWord_cases s with ⟨w, isWord, _⟩ | ⟨f, isBuiltin, _⟩ | ⟨isName, _⟩
  · simp [isWord, Token.endsItself] at h
  · simp [isBuiltin, Token.endsItself] at h
  · simp [isName, Token.endsItself] at h

theorem subscript_ne (i : Subscript) {t : Token} (h : t.endsItself = true) : i.token ≠ t := by
  rintro rfl
  cases i <;> cases h

mutual

/-- No minus in the tokens of an expression is a sign. -/
theorem written_expands : ∀ (e : Expression) (signHere : Bool),
    Token.Expands signHere false e.written e.written
  | .number _, _ => .cons_of_ne (by simp) (.nil _)
  | .var (.scalar _), _ => .cons_of_ne (by simp) (.nil _)
  | .var (.element _ i), _ =>
      .cons_of_ne (by simp) (.cons_of_ne (by simp) (.cons_of_ne (subscript_ne i rfl)
        (.cons_of_ne (by simp) (.nil _))))
  | .call s es, _ => .cons_of_ne (ofWord_ne s rfl) (.cons_of_ne (by simp) (writtenList_expands es))
  | .binary op lhs rhs, _ =>
      .cons_of_ne (by simp) ((written_expands lhs true).join (written_expands rhs _).close)

theorem writtenList_expands : ∀ es : List Expression,
    Token.Expands true false (writtenList es ++ [.closeParen]) (writtenList es ++ [.closeParen])
  | [] => .cons_of_ne (by simp) (.nil _)
  | [e] => (written_expands e true).close
  | e :: next :: rest => by
      have both := (written_expands e true).join (t := .comma) (writtenList_expands (next :: rest))
      simpa [writtenList] using both

end

variable {name : String → Prop} {literal : Float → Prop}

theorem name_of_mem_list {s : String} : ∀ {es : List Expression},
    (∀ e ∈ es, .name s ∈ e.written → name s) → .name s ∈ writtenList es → name s
  | [], _, mem => by cases mem
  | [e], all, mem => all e (by simp) mem
  | e :: next :: rest, all, mem => by
      rw [writtenList] at mem
      rcases List.mem_append.1 mem with mem | mem
      · exact all e (by simp) mem
      · cases mem with
        | tail _ mem => exact name_of_mem_list (fun e mem => all e (List.mem_cons_of_mem _ mem)) mem

/-- The names in a call are its function, if that is a name, and those in its arguments. -/
theorem name_of_mem_call {s function : String} {es : List Expression}
    (head : Token.ofWord function = .name s → name s) (all : ∀ e ∈ es, .name s ∈ e.written → name s)
    (mem : .name s ∈ (call function es).written) : name s := by
  rw [written] at mem
  rcases List.mem_cons.1 mem with same | mem
  · exact head same.symm
  · rcases List.mem_cons.1 mem with paren | mem
    · cases paren
    · rcases List.mem_append.1 mem with mem | paren
      · exact name_of_mem_list all mem
      · simp at paren

/-- The names among the tokens of an expression are names of its kind. -/
theorem Printable.name_of_mem {e : Expression} (h : e.Printable name literal)
    (named : ∀ s, name s → Token.IsName s) {s : String} (mem : .name s ∈ e.written) : name s := by
  induction h with
  | number => simp [written] at mem
  | @var place h =>
      cases place with
      | scalar =>
          cases List.mem_singleton.1 mem
          exact h
      | element other i =>
          cases i with
          | literal x =>
              have same : s = other := by
                simpa [written, Variable.written, Subscript.token] using mem
              exact same ▸ h.1
          | name index =>
              have same : s = other ∨ s = index := by
                simpa [written, Variable.written, Subscript.token] using mem
              rcases same with rfl | rfl
              · exact h.1
              · exact h.2
  | @call function es h _ ih =>
      apply name_of_mem_call _ ih mem
      rw [Token.ofWord_of_notKeyword (named function h).notKeyword]
      rintro ⟨⟩
      exact h
  | random => simp [written, writtenList, Token.ofWord_builtin] at mem
  | builtin f _ _ ih =>
      apply name_of_mem_call _ ih mem
      rw [Token.ofWord_builtin]
      exact fun same => by cases same
  | binary _ _ left right =>
      rw [written] at mem
      rcases List.mem_cons.1 mem with paren | mem
      · cases paren
      · rcases List.mem_append.1 mem with mem | mem
        · exact left mem
        · rcases List.mem_cons.1 mem with op | mem
          · cases op
          · rcases List.mem_append.1 mem with mem | paren
            · exact right mem
            · simp at paren

end Expression

end Plotline

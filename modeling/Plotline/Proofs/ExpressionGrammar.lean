/-
Module: Plotline.Proofs.ExpressionGrammar
Layer: Proofs
Purpose: The grammar of expressions, as relations between token lists and trees. It is written
  left-recursively, as one states it, and says nothing about how tokens are read. A phrase ends where the
  next token cannot continue it; `Stops` says so for each level.
Main exports: Grammar.Expr, Grammar.Term, Grammar.Power, Grammar.Chain, Grammar.Atom, Grammar.Arguments,
  Grammar.continuesCommand, Grammar.Expr.continues, Grammar.Stops
-/
import Plotline.Expression
import Plotline.Number.Reader
import Plotline.Token

namespace Plotline

namespace Grammar

/-- What may stand between the brackets of an array element. -/
inductive Index : Token → Subscript → Prop where
  | literal {text : String} {x : Float} (value : Number.read? text = some x) :
      Index (.number text) (.literal x)
  | name (name : String) : Index (.name name) (.name name)

/-- The negation of an expression is its subtraction from zero. -/
def negation (e : Expression) : Expression :=
  .binary .minus (.number 0.0) e

mutual

/-- Terms with plus and minus between them. -/
inductive Expr : List Token → Expression → Prop where
  | term {ts : List Token} {e : Expression} (h : Term ts e) : Expr ts e
  | plus {ts us : List Token} {lhs rhs : Expression} (left : Expr ts lhs) (right : Term us rhs) :
      Expr (ts ++ .operator .plus :: us) (.binary .plus lhs rhs)
  | minus {ts us : List Token} {lhs rhs : Expression} (left : Expr ts lhs) (right : Term us rhs) :
      Expr (ts ++ .operator .minus :: us) (.binary .minus lhs rhs)

/-- Powers with multiplication and division signs between them. -/
inductive Term : List Token → Expression → Prop where
  | power {ts : List Token} {e : Expression} (h : Power ts e) : Term ts e
  | times {ts us : List Token} {lhs rhs : Expression} (left : Term ts lhs) (right : Power us rhs) :
      Term (ts ++ .operator .times :: us) (.binary .times lhs rhs)
  | divide {ts us : List Token} {lhs rhs : Expression} (left : Term ts lhs) (right : Power us rhs) :
      Term (ts ++ .operator .divide :: us) (.binary .divide lhs rhs)

/-- A chain, a minus and the power it negates, or a chain raised to a negated power. -/
inductive Power : List Token → Expression → Prop where
  | chain {ts : List Token} {e : Expression} (h : Chain ts e) : Power ts e
  | negated {ts : List Token} {e : Expression} (h : Power ts e) :
      Power (.operator .minus :: ts) (negation e)
  | raised {ts us : List Token} {base e : Expression} (left : Chain ts base) (right : Power us e) :
      Power (ts ++ .operator .caret :: .operator .minus :: us) (.binary .power base (negation e))

/-- Atoms with carets between them. -/
inductive Chain : List Token → Expression → Prop where
  | atom {ts : List Token} {e : Expression} (h : Atom ts e) : Chain ts e
  | raised {ts us : List Token} {base e : Expression} (left : Chain ts base) (right : Atom us e) :
      Chain (ts ++ .operator .caret :: us) (.binary .power base e)

/-- A literal, a variable, a call or an expression in parentheses. Only calls of named functions and of the
    random function may have no arguments. -/
inductive Atom : List Token → Expression → Prop where
  | number {text : String} {x : Float} (value : Number.read? text = some x) :
      Atom [.number text] (.number x)
  | scalar (name : String) : Atom [.name name] (.var (.scalar name))
  | element (name : String) {token : Token} {subscript : Subscript} (index : Index token subscript) :
      Atom [.name name, .openBracket, token, .closeBracket] (.var (.element name subscript))
  | emptyCall (name : String) : Atom [.name name, .openParen, .closeParen] (.call name [])
  | call (name : String) {ts : List Token} {es : List Expression} (given : Arguments ts es) :
      Atom (.name name :: .openParen :: ts ++ [.closeParen]) (.call name es)
  | emptyRandom : Atom [.builtin .rnd, .openParen, .closeParen] (.call Builtin.rnd.text [])
  | builtin (f : Builtin) {ts : List Token} {es : List Expression} (given : Arguments ts es) :
      Atom (.builtin f :: .openParen :: ts ++ [.closeParen]) (.call f.text es)
  | group {ts : List Token} {e : Expression} (inner : Expr ts e) :
      Atom (.openParen :: ts ++ [.closeParen]) e

/-- One or more expressions with commas between them. -/
inductive Arguments : List Token → List Expression → Prop where
  | single {ts : List Token} {e : Expression} (h : Expr ts e) : Arguments ts [e]
  | cons {ts us : List Token} {e : Expression} {es : List Expression} (head : Expr ts e)
      (tail : Arguments us es) : Arguments (ts ++ .comma :: us) (e :: es)

end

/-! ### No phrase reaches past the end of its command -/

/-- After a command this token starts the next item, or the line ends with it. -/
def continuesCommand : Token → Bool
  | .label _ | .word _ | .endOfLine => false
  | _ => true

/-- What holds of the tokens of two phrases and of the mark between them holds of all three. -/
theorem forall_mem_join {P : Token → Prop} {ts us : List Token} {t : Token} (left : ∀ u ∈ ts, P u)
    (mark : P t) (right : ∀ u ∈ us, P u) : ∀ u ∈ ts ++ t :: us, P u :=
  List.forall_mem_append.2 ⟨left, List.forall_mem_cons.2 ⟨mark, right⟩⟩

/-- The same of a phrase and the marks that it starts and ends with. -/
theorem forall_mem_enclosed {P : Token → Prop} {ts : List Token} {t u : Token} (first : P t)
    (inner : ∀ v ∈ ts, P v) (last : P u) : ∀ v ∈ t :: ts ++ [u], P v :=
  List.forall_mem_cons.2 ⟨first, forall_mem_join inner last (by simp)⟩

mutual

theorem Expr.continues : ∀ {ts : List Token} {e : Expression}, Expr ts e →
    ∀ t ∈ ts, continuesCommand t = true
  | _, _, .term h => Term.continues h
  | _, _, .plus left right => forall_mem_join (Expr.continues left) rfl (Term.continues right)
  | _, _, .minus left right => forall_mem_join (Expr.continues left) rfl (Term.continues right)

theorem Term.continues : ∀ {ts : List Token} {e : Expression}, Term ts e →
    ∀ t ∈ ts, continuesCommand t = true
  | _, _, .power h => Power.continues h
  | _, _, .times left right => forall_mem_join (Term.continues left) rfl (Power.continues right)
  | _, _, .divide left right => forall_mem_join (Term.continues left) rfl (Power.continues right)

theorem Power.continues : ∀ {ts : List Token} {e : Expression}, Power ts e →
    ∀ t ∈ ts, continuesCommand t = true
  | _, _, .chain h => Chain.continues h
  | _, _, .negated h => List.forall_mem_cons.2 ⟨rfl, Power.continues h⟩
  | _, _, .raised left right =>
      forall_mem_join (Chain.continues left) rfl (List.forall_mem_cons.2 ⟨rfl, Power.continues right⟩)

theorem Chain.continues : ∀ {ts : List Token} {e : Expression}, Chain ts e →
    ∀ t ∈ ts, continuesCommand t = true
  | _, _, .atom h => Atom.continues h
  | _, _, .raised left right => forall_mem_join (Chain.continues left) rfl (Atom.continues right)

theorem Atom.continues : ∀ {ts : List Token} {e : Expression}, Atom ts e →
    ∀ t ∈ ts, continuesCommand t = true
  | _, _, .number _ => by simp [continuesCommand]
  | _, _, .scalar _ => by simp [continuesCommand]
  | _, _, .element _ index => by cases index <;> simp [continuesCommand]
  | _, _, .emptyCall _ => by simp [continuesCommand]
  | _, _, .call _ given =>
      List.forall_mem_cons.2 ⟨rfl, forall_mem_enclosed rfl (Arguments.continues given) rfl⟩
  | _, _, .emptyRandom => by simp [continuesCommand]
  | _, _, .builtin _ given =>
      List.forall_mem_cons.2 ⟨rfl, forall_mem_enclosed rfl (Arguments.continues given) rfl⟩
  | _, _, .group inner => forall_mem_enclosed rfl (Expr.continues inner) rfl

theorem Arguments.continues : ∀ {ts : List Token} {es : List Expression}, Arguments ts es →
    ∀ t ∈ ts, continuesCommand t = true
  | _, _, .single h => Expr.continues h
  | _, _, .cons head tail => forall_mem_join (Expr.continues head) rfl (Arguments.continues tail)

end

theorem Expr.endOfLine_not_mem {ts : List Token} {e : Expression} (h : Expr ts e) : .endOfLine ∉ ts := by
  intro mem
  cases h.continues _ mem

/-! ### Where a phrase ends -/

/-- After a name this token belongs to the same atom. -/
def extendsAtom : Token → Bool
  | .openBracket | .openParen => true
  | _ => false

/-- This token continues a power. -/
def extendsPower : Token → Bool
  | .operator .caret => true
  | t => extendsAtom t

/-- This token continues a product. -/
def extendsTerm : Token → Bool
  | .operator .times | .operator .divide => true
  | t => extendsPower t

/-- This token continues a sum. -/
def extendsExpr : Token → Bool
  | .operator .plus | .operator .minus => true
  | t => extendsTerm t

/-- The tokens that are left do not start with a token of the given kind. -/
def Stops (continues : Token → Bool) : List Token → Prop
  | [] => True
  | t :: _ => continues t = false

theorem Stops.mono {p q : Token → Bool} (h : ∀ t, p t = true → q t = true) {rest : List Token}
    (stops : Stops q rest) : Stops p rest := by
  cases rest with
  | nil => trivial
  | cons t rest =>
      cases hp : p t with
      | false => exact hp
      | true => exact absurd (h t hp) (by rw [show q t = false from stops]; simp)

theorem extendsPower_of_atom (t : Token) (h : extendsAtom t = true) : extendsPower t = true := by
  unfold extendsPower
  split
  · rfl
  · exact h

theorem extendsTerm_of_power (t : Token) (h : extendsPower t = true) : extendsTerm t = true := by
  unfold extendsTerm
  split
  · rfl
  · rfl
  · exact h

theorem extendsExpr_of_term (t : Token) (h : extendsTerm t = true) : extendsExpr t = true := by
  unfold extendsExpr
  split
  · rfl
  · rfl
  · exact h

end Grammar

end Plotline

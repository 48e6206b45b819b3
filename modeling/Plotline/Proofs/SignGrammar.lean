/-
Module: Plotline.Proofs.SignGrammar
Layer: Proofs
Purpose: Arithmetic with signs, as it is meant. The trees here follow the notation and not the reader: a
  product may have any number of signs, each of which negates all of it; a later factor and the last exponent
  of a power may have one, which negates a power. A tree has tokens, in which every sign is a minus, and a
  value in any field.
  Expressions of the language have a value in a field as well, under the same interpretation of literals,
  variables, functions and powers.
Main exports: Interpretation, Expression.meaning, Signed.Sum, Signed.Sum.tokens, Signed.Sum.value,
  Signed.Written, Signed.Written.tokens, Signed.Says
-/
import Mathlib.Algebra.Field.Basic
import Mathlib.Data.List.Forall2
import Plotline.Proofs.StatementGrammar

namespace Plotline

universe u

/-- What the parts of an expression stand for in a field. Powers, functions and variables may mean anything;
    of literals only the values of zero and one are fixed. -/
structure Interpretation (K : Type u) [Field K] where
  literal : Float → K
  place : Variable → K
  function : String → List K → K
  power : K → K → K
  literal_zero : ∀ x, Number.read? "0" = some x → literal x = 0
  literal_one : ∀ x, Number.read? "1" = some x → literal x = 1

namespace Interpretation

variable {K : Type u} [Field K]

/-- Zero and one are different literals, so every field has an interpretation. -/
instance : Nonempty (Interpretation K) := by
  have read : Number.read? "0" = some 0.0 ∧ Number.read? "1" = some 1.0 := ⟨rfl, rfl⟩
  have differ : (0.0 : Float) ≠ 1.0 := by decide +kernel
  refine ⟨⟨fun x => if x = 1.0 then 1 else 0, fun _ => 0, fun _ _ => 0, fun _ _ => 0, ?_, ?_⟩⟩
  · intro x zero
    cases read.1.symm.trans zero
    exact if_neg differ
  · intro x one
    cases read.2.symm.trans one
    exact if_pos rfl

/-- The meaning of an operation. -/
def operation (I : Interpretation K) : Arithmetic → K → K → K
  | .power => I.power
  | .times => fun x y => x * y
  | .divide => fun x y => x / y
  | .plus => fun x y => x + y
  | .minus => fun x y => x - y

end Interpretation

mutual

/-- The value of an expression in a field. -/
def Expression.meaning {K : Type u} [Field K] (I : Interpretation K) : Expression → K
  | .number x => I.literal x
  | .var place => I.place place
  | .call function arguments => I.function function (Expression.meanings I arguments)
  | .binary op lhs rhs => I.operation op (lhs.meaning I) (rhs.meaning I)

/-- The values of several expressions. -/
def Expression.meanings {K : Type u} [Field K] (I : Interpretation K) : List Expression → List K
  | [] => []
  | e :: rest => e.meaning I :: Expression.meanings I rest

end

namespace Signed

/-! ### Trees -/

/-- A variable or an array element, as it is written and as it is meant. -/
inductive Place where
  | scalar (name : String)
  | element (name : String) (token : Token) (subscript : Subscript)
      (index : Grammar.Index token subscript)

mutual

/-- Signed products with plus and minus between them. -/
inductive Sum where
  | first (p : SignedProduct)
  | plus (s : Sum) (p : SignedProduct)
  | minus (s : Sum) (p : SignedProduct)

/-- A product with any number of signs before it. -/
inductive SignedProduct where
  | plain (p : Product)
  | negated (p : SignedProduct)

/-- A power and further factors. -/
inductive Product where
  | first (p : Power)
  | times (p : Product) (f : Factor)
  | divide (p : Product) (f : Factor)

/-- A power with at most one sign before it. -/
inductive Factor where
  | plain (p : Power)
  | negated (p : Power)

/-- A chain of atoms, to which a negated power may be the last exponent. -/
inductive Power where
  | chain (c : Chain)
  | raised (base : Chain) (exponent : Power)

/-- Atoms with carets between them. -/
inductive Chain where
  | atom (a : Atom)
  | raised (base : Chain) (exponent : Atom)

/-- A literal, a variable, a call or a sum in parentheses. -/
inductive Atom where
  | number (text : String) (x : Float) (value : Number.read? text = some x)
  | place (p : Place)
  | emptyCall (name : String)
  | call (name : String) (given : Arguments)
  | emptyRandom
  | builtin (f : Builtin) (given : Arguments)
  | group (s : Sum)

/-- One or more sums. -/
inductive Arguments where
  | single (s : Sum)
  | cons (s : Sum) (rest : Arguments)

end

/-! ### How a tree is written -/

def Place.tokens : Place → List Token
  | .scalar name => [.name name]
  | .element name token _ _ => [.name name, .openBracket, token, .closeBracket]

mutual

/-- The tokens of a sum. Every sign is a minus. -/
def Sum.tokens : Sum → List Token
  | .first p => p.tokens
  | .plus s p => s.tokens ++ .operator .plus :: p.tokens
  | .minus s p => s.tokens ++ .operator .minus :: p.tokens

def SignedProduct.tokens : SignedProduct → List Token
  | .plain p => p.tokens
  | .negated p => .operator .minus :: p.tokens

def Product.tokens : Product → List Token
  | .first p => p.tokens
  | .times p f => p.tokens ++ .operator .times :: f.tokens
  | .divide p f => p.tokens ++ .operator .divide :: f.tokens

def Factor.tokens : Factor → List Token
  | .plain p => p.tokens
  | .negated p => .operator .minus :: p.tokens

def Power.tokens : Power → List Token
  | .chain c => c.tokens
  | .raised base exponent => base.tokens ++ .operator .caret :: .operator .minus :: exponent.tokens

def Chain.tokens : Chain → List Token
  | .atom a => a.tokens
  | .raised base exponent => base.tokens ++ .operator .caret :: exponent.tokens

def Atom.tokens : Atom → List Token
  | .number text _ _ => [.number text]
  | .place p => p.tokens
  | .emptyCall name => [.name name, .openParen, .closeParen]
  | .call name given => .name name :: .openParen :: given.tokens ++ [.closeParen]
  | .emptyRandom => [.builtin .rnd, .openParen, .closeParen]
  | .builtin f given => .builtin f :: .openParen :: given.tokens ++ [.closeParen]
  | .group s => .openParen :: s.tokens ++ [.closeParen]

def Arguments.tokens : Arguments → List Token
  | .single s => s.tokens
  | .cons s rest => s.tokens ++ .comma :: rest.tokens

end

/-! ### What a tree means -/

def Place.variable : Place → Variable
  | .scalar name => .scalar name
  | .element name _ subscript _ => .element name subscript

section Value

variable {K : Type u} [Field K] (I : Interpretation K)

mutual

/-- The value of a sum. A sign is a negation in the field. -/
def Sum.value : Sum → K
  | .first p => p.value
  | .plus s p => s.value + p.value
  | .minus s p => s.value - p.value

def SignedProduct.value : SignedProduct → K
  | .plain p => p.value
  | .negated p => -p.value

def Product.value : Product → K
  | .first p => p.value
  | .times p f => p.value * f.value
  | .divide p f => p.value / f.value

def Factor.value : Factor → K
  | .plain p => p.value
  | .negated p => -p.value

def Power.value : Power → K
  | .chain c => c.value
  | .raised base exponent => I.power base.value (-exponent.value)

def Chain.value : Chain → K
  | .atom a => a.value
  | .raised base exponent => I.power base.value exponent.value

def Atom.value : Atom → K
  | .number _ x _ => I.literal x
  | .place p => I.place p.variable
  | .emptyCall name => I.function name []
  | .call name given => I.function name given.values
  | .emptyRandom => I.function Builtin.rnd.text []
  | .builtin f given => I.function f.text given.values
  | .group s => s.value

def Arguments.values : Arguments → List K
  | .single s => [s.value]
  | .cons s rest => s.value :: rest.values

end

end Value

/-! ### Commands -/

/-- A figure's colour, and whether the word that marks it as filled follows. -/
structure Paint where
  color : String
  filled : Bool

def Paint.tokens (p : Paint) : List Token :=
  if p.filled then [.name p.color, .name "FILL"] else [.name p.color]

/-- The text of a jump target. -/
structure Target where
  text : String
  digits : text.toList.all Char.isDigit = true

/-- The operator of a comparison. -/
def comparisonSign : Comparison → Operator
  | .equal => .equal
  | .less => .less
  | .greater => .greater

theorem comparisonSign_compares (comparison : Comparison) :
    Grammar.Compares (comparisonSign comparison) comparison := by
  cases comparison with
  | equal => exact .equal
  | less => exact .less
  | greater => exact .greater

/-- A command, with sums wherever the language has expressions. -/
inductive Written where
  | dim (name text : String) (length : Nat) (value : Number.readNatural? text = some length)
  | drawStart (width height : Sum)
  | drawFinish
  | halt
  | goto (target : Target)
  | branch (lhs : Sum) (comparison : Comparison) (rhs : Sum) (target : Target)
  | input (name : String)
  | assign (place : Place) (value : Sum)
  | line (x1 y1 x2 y2 : Sum) (paint : Paint)
  | plot (x y radius : Sum) (paint : Paint)
  | print (value : Sum)
  | printText (text : String)
  | rectangle (x1 y1 x2 y2 : Sum) (paint : Paint)

/-- Sums, each of them with a comma after it. -/
def coordinateTokens : List Sum → List Token
  | [] => []
  | s :: rest => s.tokens ++ .comma :: coordinateTokens rest

/-- The tokens of a command. -/
def Written.tokens : Written → List Token
  | .dim name text _ _ => [.word .dim, .name name, .number text]
  | .drawStart width height =>
      .word .draw :: .name "START" :: (width.tokens ++ .comma :: height.tokens)
  | .drawFinish => [.word .draw, .name "FINISH"]
  | .halt => [.word .halt]
  | .goto target => [.word .goto, .number target.text]
  | .branch lhs comparison rhs target =>
      .word .branch :: (lhs.tokens ++ .operator (comparisonSign comparison) ::
        (rhs.tokens ++ [.name "THEN", .number target.text]))
  | .input name => [.word .input, .name name]
  | .assign place value => .word .assign :: (place.tokens ++ .operator .equal :: value.tokens)
  | .line x1 y1 x2 y2 paint => .word .line :: (coordinateTokens [x1, y1, x2, y2] ++ paint.tokens)
  | .plot x y radius paint => .word .plot :: (coordinateTokens [x, y, radius] ++ paint.tokens)
  | .print value => .word .print :: value.tokens
  | .printText text => [.word .print, .quoted text]
  | .rectangle x1 y1 x2 y2 paint =>
      .word .rectangle :: (coordinateTokens [x1, y1, x2, y2] ++ paint.tokens)

/-- An expression has the value of a sum, in every field and under every interpretation. -/
def Sum.SameValue (s : Sum) (e : Expression) : Prop :=
  ∀ (K : Type u) [Field K] (I : Interpretation K), e.meaning I = s.value I

/-- A command does what was written: the same command on expressions that have the values of the sums. -/
inductive Says : Written → Command → Prop where
  | dim (name text : String) (length : Nat) (value : Number.readNatural? text = some length) :
      Says (.dim name text length value) (.dim name length)
  | drawStart {width height : Sum} {w h : Expression} (first : Sum.SameValue.{u} width w)
      (second : Sum.SameValue.{u} height h) : Says (.drawStart width height) (.drawStart w h)
  | drawFinish : Says .drawFinish .drawFinish
  | halt : Says .halt .halt
  | goto (target : Target) : Says (.goto target) (.goto target.text)
  | branch {lhs rhs : Sum} {l r : Expression} (comparison : Comparison) (target : Target)
      (left : Sum.SameValue.{u} lhs l) (right : Sum.SameValue.{u} rhs r) :
      Says (.branch lhs comparison rhs target) (.branch l comparison r target.text)
  | input (name : String) : Says (.input name) (.input name)
  | assign (place : Place) {value : Sum} {e : Expression} (same : Sum.SameValue.{u} value e) :
      Says (.assign place value) (.assign place.variable e)
  | line {x1 y1 x2 y2 : Sum} {a b c d : Expression} (paint : Paint)
      (corners : List.Forall₂ Sum.SameValue.{u} [x1, y1, x2, y2] [a, b, c, d]) :
      Says (.line x1 y1 x2 y2 paint) (.line a b c d paint.color)
  | plot {x y radius : Sum} {a b c : Expression} (paint : Paint)
      (circle : List.Forall₂ Sum.SameValue.{u} [x, y, radius] [a, b, c]) :
      Says (.plot x y radius paint) (.plot a b c paint.color paint.filled)
  | print {value : Sum} {e : Expression} (same : Sum.SameValue.{u} value e) :
      Says (.print value) (.print e)
  | printText (text : String) : Says (.printText text) (.printText text)
  | rectangle {x1 y1 x2 y2 : Sum} {a b c d : Expression} (paint : Paint)
      (corners : List.Forall₂ Sum.SameValue.{u} [x1, y1, x2, y2] [a, b, c, d]) :
      Says (.rectangle x1 y1 x2 y2 paint) (.rectangle a b c d paint.color paint.filled)

end Signed

end Plotline

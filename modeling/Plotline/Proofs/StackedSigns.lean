/-
Module: Plotline.Proofs.StackedSigns
Layer: Proofs
Purpose: Two signs in a row after `*`, `/` or `^`. The first one is no sign to the replacement and stays for
  the reader of expressions, where it negates one power only; the second one is replaced by a group and a
  multiplication. So the group is that power, the two cancel, and what is left of the signs is a one and the
  multiplication.
  `Grammar.Stacked` says how a token list changes when such signs are put in. It follows the tokens and not a
  position among them, so it comes apart at the same places as a phrase does, and every phrase is left with one
  of the same meaning (`Grammar.Items.stacked`). After `*` the signs are as good as none; `X / - - P` means
  `X * P`, and `X ^ - - P` means `X ^ 1 * P` (`Signed.stacked_signs_read`).
Main exports: Expression.SameMeaning, Statement.SameMeaning, Grammar.Stacked, Grammar.Expr.stacked,
  Grammar.Items.stacked, Signed.expandSigns_stacked, Signed.stacked_signs_read
-/
import Mathlib.Algebra.Field.Rat
import Mathlib.Tactic.NormNum
import Plotline.Proofs.Negation

namespace Plotline

universe u

/-! ### Expressions and commands with the same meaning -/

/-- Two expressions have the same value in every field, whatever their parts stand for. -/
def Expression.SameMeaning (e e' : Expression) : Prop :=
  ∀ (K : Type u) [Field K] (I : Interpretation K), e.meaning I = e'.meaning I

namespace Expression.SameMeaning

theorem refl (e : Expression) : SameMeaning.{u} e e :=
  fun _ _ _ => rfl

theorem binary (op : Arithmetic) {lhs lhs' rhs rhs' : Expression} (left : SameMeaning.{u} lhs lhs')
    (right : SameMeaning.{u} rhs rhs') : SameMeaning.{u} (.binary op lhs rhs) (.binary op lhs' rhs') := by
  intro K _ I
  rw [Expression.meaning, Expression.meaning, left, right]

theorem call (name : String) {es es' : List Expression} (h : List.Forall₂ SameMeaning.{u} es es') :
    SameMeaning.{u} (.call name es) (.call name es') := by
  intro K _ I
  have values : Expression.meanings I es = Expression.meanings I es' := by
    induction h with
    | nil => rfl
    | cons head _ ih => rw [Expression.meanings, Expression.meanings, head, ih]
  rw [Expression.meaning, Expression.meaning, values]

end Expression.SameMeaning

open Expression (SameMeaning)

/-- Two commands are alike up to expressions that have the same meaning. -/
inductive Command.SameMeaning : Command → Command → Prop where
  | refl (c : Command) : SameMeaning c c
  | drawStart {w w' h h' : Expression} (width : Expression.SameMeaning.{u} w w')
      (height : Expression.SameMeaning.{u} h h') : SameMeaning (.drawStart w h) (.drawStart w' h')
  | branch {l l' r r' : Expression} (comparison : Comparison) (target : Label)
      (lhs : Expression.SameMeaning.{u} l l') (rhs : Expression.SameMeaning.{u} r r') :
      SameMeaning (.branch l comparison r target) (.branch l' comparison r' target)
  | assign (place : Variable) {e e' : Expression} (value : Expression.SameMeaning.{u} e e') :
      SameMeaning (.assign place e) (.assign place e')
  | print {e e' : Expression} (value : Expression.SameMeaning.{u} e e') : SameMeaning (.print e) (.print e')
  | line {a b c d a' b' c' d' : Expression} (color : String)
      (corners : List.Forall₂ Expression.SameMeaning.{u} [a, b, c, d] [a', b', c', d']) :
      SameMeaning (.line a b c d color) (.line a' b' c' d' color)
  | plot {a b c a' b' c' : Expression} (color : String) (filled : Bool)
      (circle : List.Forall₂ Expression.SameMeaning.{u} [a, b, c] [a', b', c']) :
      SameMeaning (.plot a b c color filled) (.plot a' b' c' color filled)
  | rectangle {a b c d a' b' c' d' : Expression} (color : String) (filled : Bool)
      (corners : List.Forall₂ Expression.SameMeaning.{u} [a, b, c, d] [a', b', c', d']) :
      SameMeaning (.rectangle a b c d color filled) (.rectangle a' b' c' d' color filled)

theorem Command.SameMeaning.moves {c c' : Command} {r r' : Region} (same : SameMeaning.{u} c c')
    (h : c.Moves r r') : c'.Moves r r' := by
  have figure : c.isFigure = c'.isFigure := by cases same <;> rfl
  have drawing : c.isDrawing = c'.isDrawing := by cases same <;> rfl
  cases h with
  | start width height => cases same <;> exact .start _ _
  | finish =>
      cases same
      exact .finish
  | figure isFigure => exact .figure (figure ▸ isFigure)
  | other r notDrawing => exact .other r (drawing ▸ notDrawing)

/-- Two statements have the same label, and commands with the same meaning. -/
def Statement.SameMeaning (s s' : Statement) : Prop :=
  s.label = s'.label ∧ Command.SameMeaning.{u} s.command s'.command

namespace Grammar

/-! ### Putting stacked signs in -/

/-- What is left of two signs after `*`, `/` or `^`: the first one, which is no sign to the replacement, and
    the group that the second one is replaced by. -/
def signPair : List Token :=
  [.operator .minus, .openParen, .number "0", .operator .minus, .number "1", .closeParen]

/-- What they are read as. -/
def unit : Expression :=
  negation (.binary .minus (.number 0.0) (.number 1.0))

theorem signPair_power : Power signPair unit :=
  signGroup.negated

/-- The two signs cancel. -/
theorem unit_meaning {K : Type u} [Field K] (I : Interpretation K) : unit.meaning I = 1 := by
  rw [unit, negation_meaning]
  simp [Expression.meaning, Interpretation.operation, I.literal_zero_eq, I.literal_one_eq]

/-- A multiplication comes next: the tokens start with one, or they have come to an end and one follows. -/
def multiplies (timesNext : Bool) : List Token → Bool
  | [] => timesNext
  | t :: _ => t == .operator .times

theorem multiplies_append (timesNext : Bool) (ts us : List Token) :
    multiplies timesNext (ts ++ us) = multiplies (multiplies timesNext us) ts := by
  cases ts <;> rfl

/-- The second list is the first one with stacked signs put in: before a multiplication, as one more factor
    or divisor, and in place of an exponent of one that a multiplication follows. The flag says whether one
    follows the list. -/
inductive Stacked : Bool → List Token → List Token → Prop where
  | nil (timesNext : Bool) : Stacked timesNext [] []
  | keep {timesNext : Bool} {ts us : List Token} (t : Token) (more : Stacked timesNext ts us) :
      Stacked timesNext (t :: ts) (t :: us)
  | factor {timesNext : Bool} {ts us : List Token} {op : Operator} (product : op = .times ∨ op = .divide)
      (more : Stacked timesNext ts us) :
      Stacked timesNext (.operator .times :: ts) (.operator op :: (signPair ++ .operator .times :: us))
  | exponent {timesNext : Bool} {ts us : List Token} (next : multiplies timesNext ts = true)
      (more : Stacked timesNext ts us) :
      Stacked timesNext (.operator .caret :: .number "1" :: ts) (.operator .caret :: (signPair ++ us))

/-- Nothing is put in at tokens other than `*` and `^`. -/
def isPlain : Token → Bool
  | .operator .times | .operator .caret => false
  | _ => true

/-- Such a token that is no literal either. These stand between phrases. -/
def isMark : Token → Bool
  | .number _ => false
  | t => isPlain t

theorem isPlain_of_mark {t : Token} (h : isMark t = true) : isPlain t = true := by
  cases t with
  | number => cases h
  | _ => exact h

namespace Stacked

variable {timesNext : Bool} {ts us vs ws : List Token} {t : Token}

theorem refl (timesNext : Bool) (ts : List Token) : Stacked timesNext ts ts := by
  induction ts with
  | nil => exact .nil timesNext
  | cons t ts ih => exact .keep t ih

theorem append_left (front : List Token) (h : Stacked timesNext ts us) :
    Stacked timesNext (front ++ ts) (front ++ us) := by
  induction front with
  | nil => exact h
  | cons t front ih => exact .keep t ih

theorem nil_inv (h : Stacked timesNext [] ws) : ws = [] := by
  cases h
  rfl

theorem cons_inv (plain : isPlain t = true) (h : Stacked timesNext (t :: ts) ws) :
    ∃ us, ws = t :: us ∧ Stacked timesNext ts us := by
  cases h with
  | keep _ more => exact ⟨_, rfl, more⟩
  | factor | exponent => cases plain

theorem eq_of_forall (h : Stacked timesNext ts us) (plain : ∀ t ∈ ts, isPlain t = true) : us = ts := by
  induction ts generalizing us with
  | nil => exact h.nil_inv
  | cons t ts ih =>
      rcases List.forall_mem_cons.1 plain with ⟨first, others⟩
      rcases h.cons_inv first with ⟨vs, rfl, more⟩
      rw [ih more others]

/-- The two parts of a list, unless an exponent of one is split off. -/
theorem append_inv (h : Stacked timesNext (ts ++ vs) ws) (apart : vs.head? ≠ some (.number "1")) :
    ∃ us us', ws = us ++ us' ∧ Stacked (multiplies timesNext vs) ts us ∧ Stacked timesNext vs us' := by
  induction ts generalizing ws with
  | nil => exact ⟨[], ws, rfl, .nil _, h⟩
  | cons t ts ih =>
      rw [List.cons_append] at h
      generalize split : ts ++ vs = rest at h
      cases h with
      | keep _ more =>
          rcases ih (split ▸ more) with ⟨us, us', rfl, first, second⟩
          exact ⟨t :: us, us', rfl, .keep t first, second⟩
      | factor product more =>
          rcases ih (split ▸ more) with ⟨us, us', rfl, first, second⟩
          exact ⟨_, us', by simp, .factor product first, second⟩
      | @exponent rest us next more =>
          cases ts with
          | nil =>
              rw [List.nil_append] at split
              rw [split] at apart
              exact absurd rfl apart
          | cons one ts =>
              rw [List.cons_append] at split
              rcases List.cons.inj split with ⟨rfl, rfl⟩
              -- The rest is one token shorter than the induction wants, so that token is kept in front.
              rcases ih (.keep _ more) with ⟨kept, us', same, first, second⟩
              rcases first.cons_inv rfl with ⟨us, rfl, others⟩
              rcases List.cons.inj same with ⟨_, rfl⟩
              rw [multiplies_append] at next
              exact ⟨_, us', by simp, .exponent next others, second⟩

/-- The phrases on both sides of a mark. -/
theorem join_inv (mark : isMark t = true) (h : Stacked timesNext (ts ++ t :: vs) ws) :
    ∃ us us', ws = us ++ t :: us' ∧ Stacked false ts us ∧ Stacked timesNext vs us' := by
  have apart : (t :: vs).head? ≠ some (.number "1") := by
    rintro ⟨⟩
    cases mark
  have flag : multiplies timesNext (t :: vs) = false := by
    apply eq_false_of_ne_true
    intro next
    obtain rfl : t = .operator .times := by simpa [multiplies] using next
    cases mark
  rcases h.append_inv apart with ⟨us, rest, rfl, first, second⟩
  rcases second.cons_inv (isPlain_of_mark mark) with ⟨us', rfl, others⟩
  rw [flag] at first
  exact ⟨us, us', rfl, first, others⟩

theorem parens_inv (h : Stacked timesNext (.openParen :: ts ++ [.closeParen]) ws) :
    ∃ us, ws = .openParen :: us ++ [.closeParen] ∧ Stacked false ts us := by
  rcases h.join_inv rfl with ⟨us, us', rfl, first, second⟩
  rcases first.cons_inv rfl with ⟨vs, rfl, inner⟩
  rw [second.nil_inv]
  exact ⟨vs, rfl, inner⟩

/-- The arguments of a call, after the function's name. -/
theorem call_inv (plain : isPlain t = true)
    (h : Stacked timesNext (t :: .openParen :: ts ++ [.closeParen]) ws) :
    ∃ us, ws = t :: .openParen :: us ++ [.closeParen] ∧ Stacked false ts us := by
  rcases h.cons_inv plain with ⟨vs, rfl, rest⟩
  rcases rest.parens_inv with ⟨us, rfl, inner⟩
  exact ⟨us, rfl, inner⟩

end Stacked

/-! ### Phrases keep their meaning -/

/-- The tokens are a phrase that has the meaning of an expression. -/
def Means (Phrase : List Token → Expression → Prop) (ts : List Token) (e : Expression) : Prop :=
  ∃ e', Phrase ts e' ∧ SameMeaning.{u} e e'

theorem Means.imp {Phrase Wider : List Token → Expression → Prop} {ts : List Token} {e : Expression}
    (h : Means.{u} Phrase ts e) (wider : ∀ {e : Expression}, Phrase ts e → Wider ts e) :
    Means.{u} Wider ts e := by
  obtain ⟨e', phrase, same⟩ := h
  exact ⟨e', wider phrase, same⟩

theorem Means.binary {Left Right Phrase : List Token → Expression → Prop} {ts us : List Token} {t : Token}
    {op : Arithmetic} {lhs rhs : Expression}
    (grow : ∀ {lhs rhs : Expression}, Left ts lhs → Right us rhs →
      Phrase (ts ++ t :: us) (.binary op lhs rhs))
    (left : Means.{u} Left ts lhs) (right : Means.{u} Right us rhs) :
    Means.{u} Phrase (ts ++ t :: us) (.binary op lhs rhs) := by
  obtain ⟨lhs', first, sameLeft⟩ := left
  obtain ⟨rhs', second, sameRight⟩ := right
  exact ⟨_, grow first second, .binary op sameLeft sameRight⟩

/-- A minus in front of a power. -/
theorem Means.negated {ts : List Token} {e : Expression} (h : Means.{u} Power ts e) :
    Means.{u} Power (.operator .minus :: ts) (negation e) := by
  obtain ⟨e', power, same⟩ := h
  exact ⟨_, power.negated, .binary .minus (.refl _) same⟩

/-- A chain raised to a negated power. -/
theorem Means.raised {ts us : List Token} {base e : Expression} (left : Means.{u} Chain ts base)
    (right : Means.{u} Power us e) :
    Means.{u} Power (ts ++ .operator .caret :: .operator .minus :: us)
      (.binary .power base (negation e)) := by
  obtain ⟨base', chain, sameLeft⟩ := left
  obtain ⟨e', power, sameRight⟩ := right
  exact ⟨_, .raised chain power, .binary .power sameLeft (.binary .minus (.refl _) sameRight)⟩

/-- A factor or divisor of one makes no difference. -/
theorem Means.scaled {ts : List Token} {e : Expression} {op : Operator}
    (product : op = .times ∨ op = .divide) (h : Means.{u} Term ts e) :
    Means.{u} Term (ts ++ .operator op :: signPair) e := by
  obtain ⟨e', term, same⟩ := h
  rcases product with rfl | rfl
  · refine ⟨_, term.times signPair_power, ?_⟩
    intro K _ I
    rw [Expression.meaning, unit_meaning, same]
    exact (mul_one _).symm
  · refine ⟨_, term.divide signPair_power, ?_⟩
    intro K _ I
    rw [Expression.meaning, unit_meaning, same]
    exact (div_one _).symm

/-- An exponent of one may as well be the two signs. No exponent can follow them. -/
theorem Means.raised_one {ts : List Token} {base : Expression} {x : Float} (h : Means.{u} Chain ts base)
    (one : Number.read? "1" = some x) :
    Means.{u} Power (ts ++ .operator .caret :: signPair) (.binary .power base (.number x)) := by
  obtain ⟨base', chain, same⟩ := h
  refine ⟨_, Power.raised chain signGroup, .binary .power same ?_⟩
  intro K _ I
  rw [Expression.meaning, I.literal_one x one]
  exact (unit_meaning I).symm

theorem Atom.eq_number {text : String} {ts : List Token} {e : Expression}
    (h : Atom (.number text :: ts) e) : ts = [] ∧ ∃ x, Number.read? text = some x ∧ e = .number x := by
  cases h with
  | number value => exact ⟨rfl, _, value, rfl⟩

mutual

/-- Putting stacked signs in leaves a phrase with its meaning. -/
theorem Expr.stacked : ∀ {ts us : List Token} {e : Expression} {timesNext : Bool}, Expr ts e →
    Stacked timesNext ts us → Means.{u} Expr us e
  | _, _, _, _, .term h, put => (Term.stacked h put).imp .term
  | _, _, _, _, .plus left right, put => by
      obtain ⟨vs, ws, rfl, first, second⟩ := put.join_inv rfl
      exact .binary Expr.plus (Expr.stacked left first) (Term.stacked right second)
  | _, _, _, _, .minus left right, put => by
      obtain ⟨vs, ws, rfl, first, second⟩ := put.join_inv rfl
      exact .binary Expr.minus (Expr.stacked left first) (Term.stacked right second)

theorem Term.stacked : ∀ {ts us : List Token} {e : Expression} {timesNext : Bool}, Term ts e →
    Stacked timesNext ts us → Means.{u} Term us e
  | _, _, _, _, .power h, put => (Power.stacked h put).imp .power
  | _, _, _, _, .times left right, put => by
      obtain ⟨vs, rest, rfl, first, second⟩ := put.append_inv (by simp)
      have lhs := Term.stacked left first
      cases second with
      | keep _ more => exact .binary Term.times lhs (Power.stacked right more)
      | factor product more =>
          have scaled := Means.binary Term.times (lhs.scaled product) (Power.stacked right more)
          simpa using scaled
  | _, _, _, _, .divide left right, put => by
      obtain ⟨vs, ws, rfl, first, second⟩ := put.join_inv rfl
      exact .binary Term.divide (Term.stacked left first) (Power.stacked right second)

theorem Power.stacked : ∀ {ts us : List Token} {e : Expression} {timesNext : Bool}, Power ts e →
    Stacked timesNext ts us → Means.{u} Power us e
  | _, _, _, _, .chain h, put => by
      rcases Chain.stacked h put with chain | ⟨_, power⟩
      · exact chain.imp .chain
      · exact power
  | _, _, _, _, .negated h, put => by
      obtain ⟨us, rfl, more⟩ := put.cons_inv rfl
      exact (Power.stacked h more).negated
  | _, _, _, _, .raised left right, put => by
      obtain ⟨vs, rest, rfl, first, second⟩ := put.append_inv (by simp)
      cases second with
      | keep _ more =>
          obtain ⟨us, rfl, exponent⟩ := more.cons_inv rfl
          rcases Chain.stacked left first with base | ⟨follows, _⟩
          · exact base.raised (Power.stacked right exponent)
          · cases follows

/-- No exponent can follow the two signs, so a chain may become a power that is no chain; but then a
    multiplication follows. -/
theorem Chain.stacked : ∀ {ts us : List Token} {e : Expression} {timesNext : Bool}, Chain ts e →
    Stacked timesNext ts us → Means.{u} Chain us e ∨ timesNext = true ∧ Means.{u} Power us e
  | _, _, _, _, .atom h, put => .inl ((Atom.stacked h put).imp .atom)
  | _, _, _, _, .raised left right, put => by
      obtain ⟨vs, rest, rfl, first, second⟩ := put.append_inv (by simp)
      rcases Chain.stacked left first with base | ⟨follows, _⟩
      · cases second with
        | keep _ more => exact .inl (.binary Chain.raised base (Atom.stacked right more))
        | exponent next more =>
            obtain ⟨rfl, x, one, rfl⟩ := right.eq_number
            obtain rfl := more.nil_inv
            exact .inr ⟨next, base.raised_one one⟩
      · cases follows

theorem Atom.stacked : ∀ {ts us : List Token} {e : Expression} {timesNext : Bool}, Atom ts e →
    Stacked timesNext ts us → Means.{u} Atom us e
  | _, _, _, _, .number value, put => by
      obtain rfl := put.eq_of_forall (by simp [isPlain])
      exact ⟨_, .number value, .refl _⟩
  | _, _, _, _, .scalar name, put => by
      obtain rfl := put.eq_of_forall (by simp [isPlain])
      exact ⟨_, .scalar name, .refl _⟩
  | _, _, _, _, .element name index, put => by
      obtain rfl := put.eq_of_forall (by cases index <;> simp [isPlain])
      exact ⟨_, .element name index, .refl _⟩
  | _, _, _, _, .emptyCall name, put => by
      obtain rfl := put.eq_of_forall (by simp [isPlain])
      exact ⟨_, .emptyCall name, .refl _⟩
  | _, _, _, _, .call name given, put => by
      obtain ⟨us, rfl, inner⟩ := put.call_inv rfl
      obtain ⟨es, arguments, same⟩ := Arguments.stacked given inner
      exact ⟨_, .call name arguments, .call name same⟩
  | _, _, _, _, .emptyRandom, put => by
      obtain rfl := put.eq_of_forall (by simp [isPlain])
      exact ⟨_, .emptyRandom, .refl _⟩
  | _, _, _, _, .builtin f given, put => by
      obtain ⟨us, rfl, inner⟩ := put.call_inv rfl
      obtain ⟨es, arguments, same⟩ := Arguments.stacked given inner
      exact ⟨_, .builtin f arguments, .call f.text same⟩
  | _, _, _, _, .group h, put => by
      obtain ⟨us, rfl, inner⟩ := put.parens_inv
      obtain ⟨e', expr, same⟩ := Expr.stacked h inner
      exact ⟨e', .group expr, same⟩

theorem Arguments.stacked : ∀ {ts us : List Token} {es : List Expression} {timesNext : Bool},
    Arguments ts es → Stacked timesNext ts us →
      ∃ es', Arguments us es' ∧ List.Forall₂ SameMeaning.{u} es es'
  | _, _, _, _, .single h, put => by
      obtain ⟨e', expr, same⟩ := Expr.stacked h put
      exact ⟨_, .single expr, .cons same .nil⟩
  | _, _, _, _, .cons head tail, put => by
      obtain ⟨vs, ws, rfl, first, second⟩ := put.join_inv rfl
      obtain ⟨e', expr, same⟩ := Expr.stacked head first
      obtain ⟨es', arguments, others⟩ := Arguments.stacked tail second
      exact ⟨_, .cons expr arguments, .cons same others⟩

end

theorem Coordinates.stacked {timesNext : Bool} {ts us : List Token} {es : List Expression}
    (h : Coordinates ts es) (put : Stacked timesNext ts us) :
    ∃ es', Coordinates us es' ∧ List.Forall₂ SameMeaning.{u} es es' := by
  induction h generalizing us with
  | nil =>
      obtain rfl := put.nil_inv
      exact ⟨[], .nil, .nil⟩
  | cons head tail ih =>
      obtain ⟨vs, ws, rfl, first, second⟩ := put.join_inv rfl
      obtain ⟨e', expr, same⟩ := head.stacked first
      obtain ⟨es', coordinates, others⟩ := ih second
      exact ⟨_, .cons expr coordinates, .cons same others⟩

theorem Place.stacked {timesNext : Bool} {ts us : List Token} {place : Variable} (h : Place ts place)
    (put : Stacked timesNext ts us) : us = ts := by
  apply put.eq_of_forall
  cases h with
  | scalar => simp [isPlain]
  | element name index => cases index <;> simp [isPlain]

/-- The coordinates and the colour of a figure. -/
theorem Coordinates.stacked_paint {timesNext : Bool} {ts us ws : List Token} {es : List Expression}
    {color : String} {filled : Bool} (h : Coordinates ts es) (paint : Paint us color filled)
    (put : Stacked timesNext (ts ++ us) ws) :
    ∃ vs es', ws = vs ++ us ∧ Coordinates vs es' ∧ List.Forall₂ SameMeaning.{u} es es' := by
  have plain : ∀ t ∈ us, isPlain t = true := by cases paint <;> simp [isPlain]
  have apart : us.head? ≠ some (.number "1") := by cases paint <;> simp
  obtain ⟨vs, us', rfl, first, second⟩ := put.append_inv apart
  obtain rfl := second.eq_of_forall plain
  obtain ⟨es', coordinates, same⟩ := h.stacked first
  exact ⟨vs, es', rfl, coordinates, same⟩

/-- Putting stacked signs in leaves a command with one of the same meaning. -/
theorem Cmd.stacked {timesNext : Bool} {ts us : List Token} {c : Command} (h : Cmd ts c)
    (put : Stacked timesNext ts us) : ∃ c', Cmd us c' ∧ Command.SameMeaning.{u} c c' := by
  have kept : us = ts → ∃ c', Cmd us c' ∧ Command.SameMeaning.{u} c c' := by
    rintro rfl
    exact ⟨c, h, .refl c⟩
  cases h with
  | dim | drawFinish | halt | goto | input | printText => exact kept (put.eq_of_forall (by simp [isPlain]))
  | drawStart w h =>
      obtain ⟨_, rfl, phase⟩ := put.cons_inv rfl
      obtain ⟨_, rfl, operands⟩ := phase.cons_inv rfl
      obtain ⟨vs, ws, rfl, first, second⟩ := operands.join_inv rfl
      obtain ⟨w', width, sameWidth⟩ := w.stacked first
      obtain ⟨h', height, sameHeight⟩ := h.stacked second
      exact ⟨_, .drawStart width height, .drawStart sameWidth sameHeight⟩
  | branch left sign right digits =>
      obtain ⟨_, rfl, operands⟩ := put.cons_inv rfl
      obtain ⟨vs, rest, rfl, first, others⟩ := operands.join_inv (by cases sign <;> rfl)
      obtain ⟨ws, target, rfl, second, last⟩ := others.join_inv rfl
      obtain rfl := last.eq_of_forall (by simp [isPlain])
      obtain ⟨l', lhs, sameLeft⟩ := left.stacked first
      obtain ⟨r', rhs, sameRight⟩ := right.stacked second
      exact ⟨_, .branch lhs sign rhs digits, .branch _ _ sameLeft sameRight⟩
  | assign target h =>
      obtain ⟨_, rfl, operands⟩ := put.cons_inv rfl
      obtain ⟨vs, ws, rfl, first, second⟩ := operands.join_inv rfl
      obtain rfl := target.stacked first
      obtain ⟨e', value, same⟩ := h.stacked second
      exact ⟨_, .assign target value, .assign _ same⟩
  | print h =>
      obtain ⟨_, rfl, operand⟩ := put.cons_inv rfl
      obtain ⟨e', value, same⟩ := h.stacked operand
      exact ⟨_, .print value, .print same⟩
  | line corners paint =>
      obtain ⟨_, rfl, operands⟩ := put.cons_inv rfl
      obtain ⟨vs, es, rfl, coordinates, same⟩ := corners.stacked_paint paint operands
      obtain ⟨a, b, c, d, rfl⟩ := Signed.length_eq_four same.length_eq.symm
      exact ⟨_, .line coordinates paint, .line _ same⟩
  | plot circle paint =>
      obtain ⟨_, rfl, operands⟩ := put.cons_inv rfl
      obtain ⟨vs, es, rfl, coordinates, same⟩ := circle.stacked_paint paint operands
      obtain ⟨a, b, c, rfl⟩ := List.length_eq_three.1 same.length_eq.symm
      exact ⟨_, .plot coordinates paint, .plot _ _ same⟩
  | rectangle corners paint =>
      obtain ⟨_, rfl, operands⟩ := put.cons_inv rfl
      obtain ⟨vs, es, rfl, coordinates, same⟩ := corners.stacked_paint paint operands
      obtain ⟨a, b, c, d, rfl⟩ := Signed.length_eq_four same.length_eq.symm
      exact ⟨_, .rectangle coordinates paint, .rectangle _ _ same⟩

theorem Items.head_ne_number {current : Option Label} {r last : Region} {ts : List Token}
    {statements : List Statement} (h : Items current r ts statements last) (text : String) :
    ts.head? ≠ some (.number text) := by
  cases h with
  | nil | label => simp
  | command head =>
      obtain ⟨word, us, rfl, _⟩ := head.starts
      simp

/-- Putting stacked signs in leaves labels and commands with statements of the same meaning. -/
theorem Items.stacked {current : Option Label} {r last : Region} {timesNext : Bool} {ts us : List Token}
    {statements : List Statement} (h : Items current r ts statements last) (put : Stacked timesNext ts us) :
    ∃ statements', Items current r us statements' last ∧
      List.Forall₂ Statement.SameMeaning.{u} statements statements' := by
  induction h generalizing us with
  | nil current r =>
      obtain rfl := put.nil_inv
      exact ⟨[], .nil current r, .nil⟩
  | label current l more ih =>
      obtain ⟨vs, rfl, others⟩ := put.cons_inv rfl
      obtain ⟨statements', items, same⟩ := ih others
      exact ⟨statements', .label current l items, same⟩
  | command head moves more ih =>
      obtain ⟨vs, ws, rfl, first, second⟩ := put.append_inv (more.head_ne_number "1")
      obtain ⟨c', command, same⟩ := head.stacked first
      obtain ⟨statements', items, others⟩ := ih second
      exact ⟨_, .command command (same.moves moves) items, .cons ⟨rfl, same⟩ others⟩

/-- The same up to the end of the line. -/
theorem Stacked.untilEnd {timesNext : Bool} {ts us : List Token} (h : Stacked timesNext ts us) :
    Stacked timesNext (untilEnd ts) (untilEnd us) := by
  induction h with
  | nil => exact .nil _
  | keep t more ih =>
      cases t with
      | endOfLine => exact .nil _
      | _ => exact .keep _ ih
  | factor product more ih => exact .factor product ih
  | @exponent ts us next more ih =>
      refine .exponent ?_ ih
      cases ts with
      | nil => exact next
      | cons t ts =>
          obtain rfl : t = .operator .times := by simpa [multiplies] using next
          rfl

end Grammar

/-! ### The replacement of signs -/

namespace Token

/-- Whatever follows some tokens, their signs are replaced alike. -/
theorem exists_expands (signHere : Bool) (written : List Token) :
    ∃ after ts, Expands signHere after written ts := by
  induction written generalizing signHere with
  | nil => exact ⟨signHere, [], .nil signHere⟩
  | cons t written ih =>
      obtain ⟨after, ts, tail⟩ := ih t.precedesSign
      refine ⟨after, (if signHere && t == operator .minus then signTokens else [t]) ++ ts, fun rest => ?_⟩
      rw [List.cons_append, expandFrom, tail rest, List.append_assoc]

/-- An operand starts the same whether or not a minus would be a sign in front of it. -/
theorem expandFrom_operand {tokens : List Token} (h : tokens.head? ≠ some (operator .minus))
    (signHere : Bool) : expandFrom signHere tokens = expandFrom false tokens := by
  cases tokens with
  | nil => rfl
  | cons t rest =>
      have kept : (t == operator .minus) = false := by simpa using h
      rw [expandFrom, expandFrom, kept, Bool.and_false, Bool.and_false]

end Token

namespace Signed

/-- What two signs after a tight operator amount to, together with the operator: after `*` they cancel, `/`
    becomes a multiplication, and `^` is left with an exponent of one and a multiplication. -/
def unstacked : Operator → List Token
  | .caret => [.operator .caret, .number "1", .operator .times]
  | _ => [.operator .times]

theorem expandSigns_stacked (before after : List Token) {op : Operator} (tight : op.isTight = true)
    (operand : after.head? ≠ some (.operator .minus)) :
    Grammar.Stacked false (Token.expandSigns (before ++ (unstacked op ++ after)))
      (Token.expandSigns (before ++ .operator op :: .operator .minus :: .operator .minus :: after)) := by
  obtain ⟨here, front, head⟩ := Token.exists_expands false before
  have first : (Token.operator op :: .operator .minus :: .operator .minus :: after).head? ≠
      some (.operator .minus) := by
    cases op <;> simp [Operator.isTight] at tight ⊢
  have plain : (unstacked op ++ after).head? ≠ some (.operator .minus) := by
    cases op <;> simp [unstacked]
  rw [Token.expandSigns_eq, Token.expandSigns_eq, head, head, Token.expandFrom_operand first,
    Token.expandFrom_operand plain]
  apply Grammar.Stacked.append_left
  have rest : Grammar.Stacked false (Token.expandFrom false after) (Token.expandFrom true after) := by
    rw [Token.expandFrom_operand operand true]
    exact .refl false _
  cases op with
  | times => exact .factor (.inl rfl) rest
  | divide => exact .factor (.inr rfl) rest
  | caret => exact .exponent rfl (.keep _ rest)
  | _ => cases tight

/-- Two signs in a row after `*`, `/` or `^`, whatever stands before and after them. If the line is read with
    `*` in place of `* - -` and of `/ - -`, or with `^ 1 *` in place of `^ - -`, then it is read with the signs
    too, and means the same. So the signs cancel after `*`, but they turn a division into a multiplication. -/
theorem stacked_signs_read {r last : Region} {before after : List Token} {op : Operator}
    {statements : List Statement} (tight : op.isTight = true)
    (operand : after.head? ≠ some (.operator .minus))
    (read : Statement.parseAll r (Token.expandSigns (before ++ (unstacked op ++ after))) =
      .ok (statements, last)) :
    ∃ stacked, Statement.parseAll r (Token.expandSigns
        (before ++ .operator op :: .operator .minus :: .operator .minus :: after)) = .ok (stacked, last) ∧
      List.Forall₂ Statement.SameMeaning.{u} statements stacked := by
  have items := Grammar.parseAll_eq_ok.1 read
  obtain ⟨stacked, items', same⟩ := items.stacked (expandSigns_stacked before after tight operand).untilEnd
  exact ⟨stacked, Grammar.parseAll_eq_ok.2 items', same⟩

/-- A line that prints X and P with the given tokens between them. -/
def between (tokens : List Token) : List Token :=
  [.label "10", .word .print, .name "X"] ++ (tokens ++ [.name "P", .endOfLine])

theorem stacked_signs_read_divisor :
    Operator.divide.isTight = true ∧ [Token.name "P", .endOfLine].head? ≠ some (.operator .minus) ∧
    ∃ statements, Statement.parseAll .closed (Token.expandSigns (between [.operator .times])) =
        .ok (statements, .closed) ∧
      ∃ stacked, Statement.parseAll .closed (Token.expandSigns
          (between [.operator .divide, .operator .minus, .operator .minus])) = .ok (stacked, .closed) ∧
        List.Forall₂ Statement.SameMeaning.{0} statements stacked := by
  have read : Statement.parseAll .closed (Token.expandSigns (between [.operator .times])) =
      .ok ([⟨"10", .print (.binary .times (.var (.scalar "X")) (.var (.scalar "P")))⟩], .closed) := rfl
  have operand : [Token.name "P", .endOfLine].head? ≠ some (.operator .minus) := by simp
  exact ⟨rfl, operand, _, read, stacked_signs_read rfl operand read⟩

/-- Where X is six and P is two, X / P is three and X ^ P is thirty-six; with two signs before P both are
    twelve. -/
theorem stacked_signs_do_not_cancel :
    ∃ (I : Interpretation ℚ) (quotient stackedQuotient power stackedPower : Expression),
      Statement.parseAll .closed (Token.expandSigns (between [.operator .divide])) =
        .ok ([⟨"10", .print quotient⟩], .closed) ∧
      Statement.parseAll .closed (Token.expandSigns
          (between [.operator .divide, .operator .minus, .operator .minus])) =
        .ok ([⟨"10", .print stackedQuotient⟩], .closed) ∧
      quotient.meaning I = 3 ∧ stackedQuotient.meaning I = 12 ∧
      Statement.parseAll .closed (Token.expandSigns (between [.operator .caret])) =
        .ok ([⟨"10", .print power⟩], .closed) ∧
      Statement.parseAll .closed (Token.expandSigns
          (between [.operator .caret, .operator .minus, .operator .minus])) =
        .ok ([⟨"10", .print stackedPower⟩], .closed) ∧
      power.meaning I = 36 ∧ stackedPower.meaning I = 12 := by
  obtain ⟨J⟩ := (inferInstance : Nonempty (Interpretation ℚ))
  let I : Interpretation ℚ :=
    { J with
      place := fun place => if place = .scalar "X" then 6 else 2
      power := fun x y => x ^ y.num.natAbs }
  have x : I.place (.scalar "X") = 6 := rfl
  have p : I.place (.scalar "P") = 2 := rfl
  have power : I.power = fun x y => x ^ y.num.natAbs := rfl
  let one : Expression := .binary .minus (.number 0.0) (.binary .minus (.number 0.0) (.number 1.0))
  refine ⟨I, .binary .divide (.var (.scalar "X")) (.var (.scalar "P")),
    .binary .times (.binary .divide (.var (.scalar "X")) one) (.var (.scalar "P")),
    .binary .power (.var (.scalar "X")) (.var (.scalar "P")),
    .binary .times (.binary .power (.var (.scalar "X")) one) (.var (.scalar "P")),
    rfl, rfl, ?_, ?_, rfl, rfl, ?_, ?_⟩
  all_goals
    simp only [one, Expression.meaning, Interpretation.operation, I.literal_zero_eq, I.literal_one_eq, x, p,
      power]
    norm_num

end Signed

end Plotline

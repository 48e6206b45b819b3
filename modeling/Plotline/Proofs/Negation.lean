/-
Module: Plotline.Proofs.Negation
Layer: Proofs
Purpose: A minus that is a sign means negation. Signs are dealt with twice: most are replaced before anything
  is read, without regard to what binds tighter, and those after `*`, `/`, `^` and the start of a drawing are
  left to the reader of expressions, which negates one power only. Here every tree with signs is followed
  through both. Its tokens become a phrase of the language whose value is the value of the tree.
  A sign in front of a product ends up inside of its leftmost factor, so the two laws that matter are about
  phrases: a product in front of a term joins its leftmost factor (`Grammar.Term.scaled`), and so does a minus
  (`Grammar.Term.negated`), and both reach the whole term.
Main exports: Grammar.Term.scaled, Grammar.Term.negated, Signed.HasReading, Signed.Sum.reading,
  Signed.minus_means_negation
-/
import Plotline.Proofs.SignExpansion
import Plotline.Proofs.SignGrammar
import Plotline.Proofs.StatementReading

namespace Plotline

universe u

theorem Interpretation.literal_zero_eq {K : Type u} [Field K] (I : Interpretation K) :
    I.literal 0.0 = 0 :=
  I.literal_zero 0.0 rfl

theorem Interpretation.literal_one_eq {K : Type u} [Field K] (I : Interpretation K) :
    I.literal 1.0 = 1 :=
  I.literal_one 1.0 rfl

namespace Grammar

theorem negation_meaning {K : Type u} [Field K] (I : Interpretation K) (e : Expression) :
    (negation e).meaning I = -e.meaning I := by
  simp [negation, Expression.meaning, Interpretation.operation, I.literal_zero_eq]

/-! ### A factor or a minus in front of a term -/

/-- A term times another one is a term. The other one is not read as a whole, but division and
    multiplication may be regrouped. -/
theorem Term.scaled {front ts : List Token} {factor e : Expression} (left : Term front factor)
    (h : Term ts e) :
    ∃ scaled, Term (front ++ .operator .times :: ts) scaled ∧
      ∀ (K : Type u) [Field K] (I : Interpretation K),
        scaled.meaning I = factor.meaning I * e.meaning I := by
  cases h with
  | power h => exact ⟨_, .times left h, fun _ _ _ => rfl⟩
  | @times ts us lhs rhs first right =>
      obtain ⟨scaled, term, value⟩ := Term.scaled left first
      refine ⟨_, by simpa using term.times right, ?_⟩
      intro K _ I
      simp only [Expression.meaning, Interpretation.operation, value, mul_assoc]
  | @divide ts us lhs rhs first right =>
      obtain ⟨scaled, term, value⟩ := Term.scaled left first
      refine ⟨_, by simpa using term.divide right, ?_⟩
      intro K _ I
      simp only [Expression.meaning, Interpretation.operation, value, mul_div_assoc]

/-- A minus in front of a term is read as part of its leftmost power, and negates all of it. -/
theorem Term.negated {ts : List Token} {e : Expression} (h : Term ts e) :
    ∃ negated, Term (.operator .minus :: ts) negated ∧
      ∀ (K : Type u) [Field K] (I : Interpretation K), negated.meaning I = -e.meaning I := by
  cases h with
  | power h => exact ⟨_, .power h.negated, fun _ _ I => negation_meaning I e⟩
  | times first right =>
      obtain ⟨negated, term, value⟩ := Term.negated first
      refine ⟨_, term.times right, ?_⟩
      intro K _ I
      simp only [Expression.meaning, Interpretation.operation, value, neg_mul]
  | divide first right =>
      obtain ⟨negated, term, value⟩ := Term.negated first
      refine ⟨_, term.divide right, ?_⟩
      intro K _ I
      simp only [Expression.meaning, Interpretation.operation, value, neg_div]

/-- The group that stands for a sign. -/
theorem signGroup :
    Power [.openParen, .number "0", .operator .minus, .number "1", .closeParen]
      (.binary .minus (.number 0.0) (.number 1.0)) := by
  have zero : Term [.number "0"] (.number 0.0) := .power (.chain (.atom (.number rfl)))
  have one : Term [.number "1"] (.number 1.0) := .power (.chain (.atom (.number rfl)))
  exact .chain (.atom (.group ((Expr.term zero).minus one)))

/-- The tokens that stand for a sign negate the term after them. -/
theorem Term.signed {ts : List Token} {e : Expression} (h : Term ts e) :
    ∃ signed, Term (Token.signTokens ++ ts) signed ∧
      ∀ (K : Type u) [Field K] (I : Interpretation K), signed.meaning I = -e.meaning I := by
  obtain ⟨signed, term, value⟩ := Term.scaled (.power signGroup) h
  refine ⟨signed, term, ?_⟩
  intro K _ I
  rw [value]
  simp [Expression.meaning, Interpretation.operation, I.literal_zero_eq, I.literal_one_eq]

end Grammar

namespace Signed

open Token (Expands)

/-- Whether or not a minus in front of them is a sign, written tokens become a phrase of the language that
    says what is meant. A minus after them is a subtraction. -/
def HasReading {α : Type} (Phrase : List Token → α → Prop) (written : List Token)
    (Meant : α → Prop) : Prop :=
  ∀ signHere, ∃ ts a, Expands signHere false written ts ∧ Phrase ts a ∧ Meant a

/-! ### Following a tree through the replacement of its signs -/

theorem index_ne_minus {token : Token} {subscript : Subscript} (index : Grammar.Index token subscript) :
    token ≠ .operator .minus := by
  cases index <;> simp

theorem index_precedesSign {token : Token} {subscript : Subscript}
    (index : Grammar.Index token subscript) : token.precedesSign = false := by
  cases index <;> rfl

theorem Place.expands (p : Place) (signHere : Bool) : Expands signHere false p.tokens p.tokens := by
  cases p with
  | scalar name => exact .cons_of_ne (by simp) (.nil _)
  | element name token subscript index =>
      refine .cons_of_ne (by simp) (.cons_of_not_sign (.cons_of_ne (index_ne_minus index) ?_))
      rw [index_precedesSign index]
      exact .cons_of_not_sign (.nil _)

theorem Place.atom (p : Place) : Grammar.Atom p.tokens (.var p.variable) := by
  cases p with
  | scalar name => exact .scalar name
  | element name token subscript index => exact .element name index

/-- The arguments of a call, after the function's name. -/
theorem expands_call {front : Token} {written ts : List Token} (signHere : Bool)
    (notMinus : front ≠ .operator .minus) (inner : Expands true false written ts) :
    Expands signHere false (front :: .openParen :: written ++ [.closeParen])
      (front :: .openParen :: ts ++ [.closeParen]) :=
  .cons_of_ne notMinus (.cons_of_ne (by simp) inner.close)

theorem HasReading.imp {α : Type} {Phrase Wider : List Token → α → Prop} {written : List Token}
    {Meant : α → Prop} (h : HasReading Phrase written Meant)
    (wider : ∀ {ts : List Token} {a : α}, Phrase ts a → Wider ts a) :
    HasReading Wider written Meant := by
  intro signHere
  obtain ⟨ts, a, expands, phrase, meant⟩ := h signHere
  exact ⟨ts, a, expands, wider phrase, meant⟩

/-- Two phrases with an operator between them are read as the operation on what they are read as. -/
theorem HasReading.binary {Left Right Phrase : List Token → Expression → Prop}
    {written more : List Token} {t : Token} {op : Arithmetic}
    {x y : (K : Type u) → [Field K] → Interpretation K → K}
    (grow : ∀ {ts us : List Token} {lhs rhs : Expression}, Left ts lhs → Right us rhs →
      Phrase (ts ++ t :: us) (.binary op lhs rhs))
    (first : HasReading Left written fun e =>
      ∀ (K : Type u) [Field K] (I : Interpretation K), e.meaning I = x K I)
    (second : ∃ us rhs, Expands t.precedesSign false more us ∧ Right us rhs ∧
      ∀ (K : Type u) [Field K] (I : Interpretation K), rhs.meaning I = y K I) :
    HasReading Phrase (written ++ t :: more) fun e =>
      ∀ (K : Type u) [Field K] (I : Interpretation K),
        e.meaning I = I.operation op (x K I) (y K I) := by
  intro signHere
  obtain ⟨ts, lhs, head, left, leftValue⟩ := first signHere
  obtain ⟨us, rhs, tail, right, rightValue⟩ := second
  refine ⟨_, _, head.join tail, grow left right, ?_⟩
  intro K _ I
  rw [Expression.meaning, leftValue, rightValue]

mutual

/-- A sum as it is written is read as an expression that has its value. -/
theorem Sum.reading : ∀ s : Sum, HasReading Grammar.Expr s.tokens (Sum.SameValue.{u} s)
  | .first p => (SignedProduct.reading p).imp Grammar.Expr.term
  | .plus s p => HasReading.binary Grammar.Expr.plus (Sum.reading s) (SignedProduct.reading p true)
  | .minus s p => HasReading.binary Grammar.Expr.minus (Sum.reading s) (SignedProduct.reading p true)

theorem SignedProduct.reading : ∀ p : SignedProduct, HasReading Grammar.Term p.tokens fun e =>
    ∀ (K : Type u) [Field K] (I : Interpretation K), e.meaning I = p.value I
  | .plain p => Product.reading p
  | .negated p => by
      -- The next token comes after a minus, so all signs but the first are replaced.
      obtain ⟨ts, e, expands, term, value⟩ := SignedProduct.reading p true
      intro signHere
      cases signHere with
      | true =>
          obtain ⟨signed, isTerm, negates⟩ := term.signed
          refine ⟨_, signed, expands.sign, isTerm, ?_⟩
          intro K _ I
          rw [negates, value]
          rfl
      | false =>
          obtain ⟨negated, isTerm, negates⟩ := term.negated
          refine ⟨_, negated, .cons_of_not_sign expands, isTerm, ?_⟩
          intro K _ I
          rw [negates, value]
          rfl

theorem Product.reading : ∀ p : Product, HasReading Grammar.Term p.tokens fun e =>
    ∀ (K : Type u) [Field K] (I : Interpretation K), e.meaning I = p.value I
  | .first p => (Power.reading p).imp Grammar.Term.power
  | .times p f => HasReading.binary Grammar.Term.times (Product.reading p) (Factor.reading f)
  | .divide p f => HasReading.binary Grammar.Term.divide (Product.reading p) (Factor.reading f)

/-- After `*` and `/` no sign is replaced, and what is left of it negates the power. -/
theorem Factor.reading : ∀ f : Factor, ∃ ts e, Expands false false f.tokens ts ∧ Grammar.Power ts e ∧
    ∀ (K : Type u) [Field K] (I : Interpretation K), e.meaning I = f.value I
  | .plain p => Power.reading p false
  | .negated p => by
      obtain ⟨ts, e, expands, power, value⟩ := Power.reading p true
      refine ⟨_, _, .cons_of_not_sign expands, power.negated, ?_⟩
      intro K _ I
      rw [Grammar.negation_meaning, value]
      rfl

theorem Power.reading : ∀ p : Power, HasReading Grammar.Power p.tokens fun e =>
    ∀ (K : Type u) [Field K] (I : Interpretation K), e.meaning I = p.value I
  | .chain c => (Chain.reading c).imp Grammar.Power.chain
  | .raised base exponent => by
      intro signHere
      obtain ⟨ts, lhs, first, left, leftValue⟩ := Chain.reading base signHere
      obtain ⟨us, rhs, second, right, rightValue⟩ := Power.reading exponent true
      refine ⟨_, _, first.join (.cons_of_not_sign second), .raised left right, ?_⟩
      intro K _ I
      rw [Expression.meaning, Grammar.negation_meaning, leftValue, rightValue]
      rfl

theorem Chain.reading : ∀ c : Chain, HasReading Grammar.Chain c.tokens fun e =>
    ∀ (K : Type u) [Field K] (I : Interpretation K), e.meaning I = c.value I
  | .atom a => (Atom.reading a).imp Grammar.Chain.atom
  | .raised base exponent =>
      HasReading.binary Grammar.Chain.raised (Chain.reading base) (Atom.reading exponent false)

theorem Atom.reading : ∀ a : Atom, HasReading Grammar.Atom a.tokens fun e =>
    ∀ (K : Type u) [Field K] (I : Interpretation K), e.meaning I = a.value I
  | .number text x value => by
      intro signHere
      exact ⟨_, _, .cons_of_ne (by simp) (.nil _), .number value, fun _ _ _ => rfl⟩
  | .place p => by
      intro signHere
      exact ⟨_, _, p.expands signHere, p.atom, fun _ _ _ => rfl⟩
  | .emptyCall name => by
      intro signHere
      exact ⟨_, _, .cons_of_ne (by simp) (.cons_of_ne (by simp) (.cons_of_ne (by simp) (.nil _))),
        .emptyCall name, fun _ _ _ => rfl⟩
  | .call name given => by
      intro signHere
      obtain ⟨ts, es, expands, arguments, values⟩ := Arguments.reading given true
      refine ⟨_, _, expands_call signHere (by simp) expands, .call name arguments, ?_⟩
      intro K _ I
      rw [Expression.meaning, values]
      rfl
  | .emptyRandom => by
      intro signHere
      exact ⟨_, _, .cons_of_ne (by simp) (.cons_of_ne (by simp) (.cons_of_ne (by simp) (.nil _))),
        .emptyRandom, fun _ _ _ => rfl⟩
  | .builtin f given => by
      intro signHere
      obtain ⟨ts, es, expands, arguments, values⟩ := Arguments.reading given true
      refine ⟨_, _, expands_call signHere (by simp) expands, .builtin f arguments, ?_⟩
      intro K _ I
      rw [Expression.meaning, values]
      rfl
  | .group s => by
      intro signHere
      obtain ⟨ts, e, expands, inner, value⟩ := Sum.reading s true
      exact ⟨_, e, .cons_of_ne (by simp) expands.close, .group inner, value⟩

theorem Arguments.reading : ∀ given : Arguments, HasReading Grammar.Arguments given.tokens fun es =>
    ∀ (K : Type u) [Field K] (I : Interpretation K), Expression.meanings I es = given.values I
  | .single s => by
      intro signHere
      obtain ⟨ts, e, expands, inner, value⟩ := Sum.reading s signHere
      refine ⟨_, _, expands, .single inner, ?_⟩
      intro K _ I
      rw [Expression.meanings, value]
      rfl
  | .cons s rest => by
      intro signHere
      obtain ⟨ts, e, first, head, value⟩ := Sum.reading s signHere
      obtain ⟨us, es, second, tail, values⟩ := Arguments.reading rest true
      refine ⟨_, _, first.join second, .cons head tail, ?_⟩
      intro K _ I
      rw [Expression.meanings, value, values]
      rfl

end

/-! ### Commands -/

theorem Paint.expands (p : Paint) (signHere : Bool) : Expands signHere false p.tokens p.tokens := by
  unfold Paint.tokens
  split
  · exact .cons_of_ne (by simp) (.cons_of_ne (by simp) (.nil _))
  · exact .cons_of_ne (by simp) (.nil _)

theorem Paint.phrase (p : Paint) : Grammar.Paint p.tokens p.color p.filled := by
  unfold Paint.tokens
  cases p.filled with
  | true => exact .filled p.color
  | false => exact .plain p.color

theorem Place.phrase (p : Place) : Grammar.Place p.tokens p.variable := by
  cases p with
  | scalar name => exact .scalar name
  | element name token subscript index => exact .element name index

theorem comparisonSign_precedesSign (comparison : Comparison) :
    (Token.operator (comparisonSign comparison)).precedesSign = true := by
  cases comparison <;> rfl

theorem coordinates_reading (sums : List Sum) :
    ∃ ts es, Expands true true (coordinateTokens sums) ts ∧ Grammar.Coordinates ts es ∧
      List.Forall₂ Sum.SameValue.{u} sums es := by
  induction sums with
  | nil => exact ⟨[], [], .nil true, .nil, .nil⟩
  | cons s rest ih =>
      obtain ⟨ts, e, first, head, value⟩ := s.reading true
      obtain ⟨us, es, second, tail, values⟩ := ih
      exact ⟨_, _, first.join second, .cons head tail, .cons value values⟩

theorem length_eq_four {α : Type} {xs : List α} (h : xs.length = 4) : ∃ a b c d, xs = [a, b, c, d] := by
  match xs, h with
  | [a, b, c, d], _ => exact ⟨a, b, c, d, rfl⟩

/-- A command as it is written is read as the same command on expressions that have the values of its sums. -/
theorem Written.reading (w : Written) (signHere : Bool) :
    ∃ after ts c, Expands signHere after w.tokens ts ∧ Grammar.Cmd ts c ∧ Says.{u} w c := by
  cases w with
  | dim name text length value =>
      exact ⟨_, _, _, .cons_of_ne (by simp) (.cons_of_ne (by simp) (.cons_of_ne (by simp) (.nil _))),
        .dim name value, .dim name text length value⟩
  | drawFinish =>
      exact ⟨_, _, _, .cons_of_ne (by simp) (.cons_of_ne (by simp) (.nil _)), .drawFinish, .drawFinish⟩
  | halt => exact ⟨_, _, _, .cons_of_ne (by simp) (.nil _), .halt, .halt⟩
  | goto target =>
      exact ⟨_, _, _, .cons_of_ne (by simp) (.cons_of_ne (by simp) (.nil _)), .goto target.digits,
        .goto target⟩
  | input name =>
      exact ⟨_, _, _, .cons_of_ne (by simp) (.cons_of_ne (by simp) (.nil _)), .input name, .input name⟩
  | printText text =>
      exact ⟨_, _, _, .cons_of_ne (by simp) (.cons_of_ne (by simp) (.nil _)), .printText text,
        .printText text⟩
  | drawStart width height =>
      -- A minus after the word for the start is no sign; the reader of expressions takes it.
      obtain ⟨ts, w, first, left, leftValue⟩ := width.reading false
      obtain ⟨us, h, second, right, rightValue⟩ := height.reading true
      exact ⟨_, _, _, .cons_of_ne (by simp) (.cons_of_ne (by simp) (first.join second)),
        .drawStart left right, .drawStart leftValue rightValue⟩
  | branch lhs comparison rhs target =>
      obtain ⟨ts, l, first, left, leftValue⟩ := lhs.reading true
      obtain ⟨us, r, second, right, rightValue⟩ := rhs.reading true
      rw [← comparisonSign_precedesSign comparison] at second
      have target_kept : Expands false false [.name "THEN", .number target.text] _ :=
        .cons_of_not_sign (.cons_of_not_sign (.nil _))
      exact ⟨_, _, _, .cons_of_ne (by simp) (first.join (second.append target_kept)),
        .branch left (comparisonSign_compares comparison) right target.digits,
        .branch comparison target leftValue rightValue⟩
  | assign place value =>
      obtain ⟨ts, e, expands, phrase, same⟩ := value.reading true
      exact ⟨_, _, _, .cons_of_ne (by simp) ((place.expands true).join expands),
        .assign place.phrase phrase, .assign place same⟩
  | print value =>
      obtain ⟨ts, e, expands, phrase, same⟩ := value.reading true
      exact ⟨_, _, _, .cons_of_ne (by simp) expands, .print phrase, .print same⟩
  | plot x y radius paint =>
      obtain ⟨ts, es, expands, circle, same⟩ := coordinates_reading [x, y, radius]
      obtain ⟨a, b, c, rfl⟩ := List.length_eq_three.1 same.length_eq.symm
      exact ⟨_, _, _, .cons_of_ne (by simp) (expands.append (paint.expands true)),
        .plot circle paint.phrase, .plot paint same⟩
  | line x1 y1 x2 y2 paint =>
      obtain ⟨ts, es, expands, corners, same⟩ := coordinates_reading [x1, y1, x2, y2]
      obtain ⟨a, b, c, d, rfl⟩ := length_eq_four same.length_eq.symm
      exact ⟨_, _, _, .cons_of_ne (by simp) (expands.append (paint.expands true)),
        .line corners paint.phrase, .line paint same⟩
  | rectangle x1 y1 x2 y2 paint =>
      obtain ⟨ts, es, expands, corners, same⟩ := coordinates_reading [x1, y1, x2, y2]
      obtain ⟨a, b, c, d, rfl⟩ := length_eq_four same.length_eq.symm
      exact ⟨_, _, _, .cons_of_ne (by simp) (expands.append (paint.expands true)),
        .rectangle corners paint.phrase, .rectangle paint same⟩

/-- The commands of a line. -/
theorem commands_reading (l : Label) (ws : List Written) :
    ∀ signHere, ∃ ts cs,
      Token.expandFrom signHere (ws.flatMap Written.tokens ++ [.endOfLine]) = ts ++ [.endOfLine] ∧
      List.Forall₂ Says.{u} ws cs ∧
      ∀ r last, Region.Path r (cs.map (Statement.mk l)) last →
        Grammar.Items (some l) r ts (cs.map (Statement.mk l)) last := by
  induction ws with
  | nil =>
      intro signHere
      refine ⟨[], [], by cases signHere <;> rfl, .nil, ?_⟩
      intro r last path
      cases path
      exact .nil _ _
  | cons w ws ih =>
      intro signHere
      obtain ⟨after, ts, c, expands, command, said⟩ := w.reading signHere
      obtain ⟨us, cs, others, saidToo, items⟩ := ih after
      refine ⟨ts ++ us, c :: cs, ?_, .cons said saidToo, ?_⟩
      · rw [List.flatMap_cons, List.append_assoc, expands, others, List.append_assoc]
      · intro r last path
        cases path with
        | cons moves rest => exact .command command moves (items _ _ rest)

/-- A minus that is a sign means negation. A line of commands, in which every expression is written as a sum
    with signs, is read as the same commands on expressions that have the values of the sums in every field,
    wherever the rule of drawing regions allows the commands. -/
theorem minus_means_negation (l : Label) (ws : List Written) :
    ∃ cs, List.Forall₂ Says.{u} ws cs ∧
      ∀ r last, Region.Path r (cs.map (Statement.mk l)) last →
        Statement.parseAll r
            (Token.expandSigns (.label l :: ws.flatMap Written.tokens ++ [.endOfLine])) =
          .ok (cs.map (Statement.mk l), last) := by
  obtain ⟨ts, cs, expands, said, items⟩ := commands_reading l ws true
  refine ⟨cs, said, ?_⟩
  intro r last path
  have replaced : Token.expandSigns (.label l :: ws.flatMap Written.tokens ++ [.endOfLine]) =
      .label l :: ts ++ [.endOfLine] := by
    rw [Token.expandSigns_eq, List.cons_append, Token.expandFrom, Token.precedesSign, expands]
    rfl
  have whole : Grammar.Items none r (.label l :: ts) (cs.map (Statement.mk l)) last :=
    .label none l (items r last path)
  have ends : Grammar.IsEnd [.endOfLine] := rfl
  rw [replaced]
  exact whole.parse_eq ends (by simp)

/-- A sign reaches over the power and the product after it, and the one after the multiplication sign over the
    last power only. -/
example :
    Statement.parseAll .closed (Token.expandSigns
      [.label "10", .word .print, .operator .minus, .name "A", .operator .caret, .name "B",
        .operator .times, .operator .minus, .name "C", .endOfLine]) =
      .ok ([⟨"10", .print (.binary .times
        (.binary .times (.binary .minus (.number 0.0) (.number 1.0))
          (.binary .power (.var (.scalar "A")) (.var (.scalar "B"))))
        (.binary .minus (.number 0.0) (.var (.scalar "C"))))⟩], .closed) := by
  rfl

end Signed

end Plotline

/-
Module: Plotline.Proofs.ExpressionReading
Layer: Proofs
Purpose: Reading an expression follows the grammar exactly. The grammar is left-recursive and the reader
  loops; `Loops` is what a loop has done after reading a left-recursive phrase, and it connects the two.
  Completeness (`Grammar.Expr.parse_eq`): a phrase is read, up to its end, as the tree that the grammar
  gives it, and so has only one tree. Soundness (`Grammar.expr_of_parse`): what was read is a phrase. It
  needs a depth that covers the tokens, since a loop that ran out of depth would stop inside its phrase.
Main exports: Grammar.Reads, Grammar.Loops, Grammar.Expr.parse_eq, Grammar.Expr.unique,
  Grammar.expr_of_parse
-/
import Plotline.Expression.Parser
import Plotline.Proofs.ExpressionGrammar
import Plotline.Proofs.Outcome

namespace Plotline

namespace Grammar

open Expression (chain level primary power product sum nonemptyArguments)
open Expression (powerOperator? productOperator? sumOperator?)

/-! ### Loops -/

/-- A reader takes the tokens of a phrase, and no more, whenever the next token cannot continue it. -/
def Reads {α : Type} (reader : Reader α) (continues : Token → Bool) (ts : List Token) (a : α) : Prop :=
  ∀ rest, Stops continues rest → reader (ts ++ rest) = .ok (a, rest)

/-- A loop has read the tokens of a phrase and goes on with its tree, having spent no more depth than there
    are tokens. The next token must not continue the phrase's last operand, but may be an operator of the
    loop. -/
def Loops (operand : Reader Expression) (operator? : Token → Option Arithmetic)
    (continues : Token → Bool) (depth : Nat) (ts : List Token) (e : Expression) : Prop :=
  ∃ spent, spent ≤ ts.length ∧ ∀ rest, Stops continues rest →
    level operand operator? depth (ts ++ rest) = chain operand operator? (depth - spent) e rest

section Loops

variable {operand : Reader Expression} {operator? : Token → Option Arithmetic}
variable {continues : Token → Bool} {depth : Nat}

theorem Loops.first {ts : List Token} {e : Expression} (h : Reads operand continues ts e) :
    Loops operand operator? continues depth ts e := by
  refine ⟨0, Nat.zero_le _, fun rest stops => ?_⟩
  unfold level
  rw [h rest stops]
  rfl

/-- One more round of the loop. The last operand decides which tokens may not follow. -/
theorem Loops.more {wider : Token → Bool} {ts us : List Token} {t : Token} {op : Arithmetic}
    {lhs rhs : Expression} (left : Loops operand operator? continues depth ts lhs)
    (isOperator : operator? t = some op) (ends : continues t = false)
    (right : Reads operand wider us rhs) (enough : (ts ++ t :: us).length ≤ depth) :
    Loops operand operator? wider depth (ts ++ t :: us) (.binary op lhs rhs) := by
  obtain ⟨spent, bound, looped⟩ := left
  simp only [List.length_append, List.length_cons] at enough
  refine ⟨spent + 1, by simp only [List.length_append, List.length_cons]; omega, fun rest stops => ?_⟩
  obtain ⟨left, hleft⟩ : ∃ left, depth - spent = left + 1 := ⟨depth - spent - 1, by omega⟩
  have hnext : depth - (spent + 1) = left := by omega
  rw [List.append_assoc, List.cons_append, looped (t :: (us ++ rest)) ends, hleft, hnext]
  simp only [chain, isOperator]
  rw [right rest stops]
  rfl

theorem chain_of_stops {n : Nat} {e : Expression} {rest : List Token}
    (stops : Stops (fun t => (operator? t).isSome) rest) :
    chain operand operator? n e rest = .ok (e, rest) := by
  cases rest with
  | nil => cases n <;> rfl
  | cons t rest =>
      have none : operator? t = none := by simpa [Stops] using stops
      cases n with
      | zero => rfl
      | succ n => simp only [chain, none]

/-- A loop ends where no operator of its level follows. -/
theorem Loops.reads {wider : Token → Bool} {ts : List Token} {e : Expression}
    (h : Loops operand operator? continues depth ts e)
    (operand_le : ∀ t, continues t = true → wider t = true)
    (operator_le : ∀ t, (operator? t).isSome = true → wider t = true) :
    Reads (level operand operator? depth) wider ts e := by
  obtain ⟨spent, _, looped⟩ := h
  intro rest stops
  rw [looped rest (stops.mono operand_le)]
  exact chain_of_stops (stops.mono operator_le)

end Loops

theorem extendsPower_of_operator (t : Token) (h : (powerOperator? t).isSome = true) :
    extendsPower t = true := by
  unfold powerOperator? at h
  split at h
  · rfl
  · cases h

theorem extendsTerm_of_operator (t : Token) (h : (productOperator? t).isSome = true) :
    extendsTerm t = true := by
  unfold productOperator? at h
  split at h
  · rfl
  · rfl
  · cases h

theorem extendsExpr_of_operator (t : Token) (h : (sumOperator? t).isSome = true) :
    extendsExpr t = true := by
  unfold sumOperator? at h
  split at h
  · rfl
  · rfl
  · cases h

/-! ### Completeness -/

theorem parseNumber_of_read {text : String} {x : Float} (value : Number.read? text = some x) :
    Expression.parseNumber text = .ok x := by
  simp only [Expression.parseNumber, value]

theorem Index.reads {token : Token} {subscript : Subscript} (h : Index token subscript)
    (rest : List Token) :
    Expression.parseSubscript (token :: .closeBracket :: rest) = .ok (subscript, rest) := by
  cases h with
  | literal value =>
      simp only [Expression.parseSubscript, parseNumber_of_read value]
      rfl
  | name name => rfl

theorem primary_scalar {depth : Nat} {name : String} {rest : List Token}
    (stops : Stops extendsAtom rest) :
    primary (depth + 1) (.name name :: rest) = .ok (.var (.scalar name), rest) := by
  cases rest with
  | nil => rfl
  | cons t rest =>
      cases t with
      | openBracket => cases stops
      | openParen => cases stops
      | _ => rfl

/-- The depth that a minus leaves to the power it negates. -/
theorem primary_negated {depth : Nat} {ts : List Token} {e : Expression}
    (h : Reads (power (primary depth) depth) extendsPower ts e) :
    Reads (primary (depth + 1)) extendsPower (.operator .minus :: ts) (negation e) := by
  intro rest stops
  simp only [List.cons_append, primary]
  rw [h rest stops]
  rfl

theorem Loops.reads_power {continues : Token → Bool} {depth : Nat} {ts : List Token} {e : Expression}
    (h : Loops (primary depth) powerOperator? continues depth ts e)
    (continues_le : ∀ t, continues t = true → extendsPower t = true) :
    Reads (power (primary depth) depth) extendsPower ts e :=
  h.reads continues_le extendsPower_of_operator

theorem Loops.reads_term {depth : Nat} {ts : List Token} {e : Expression}
    (h : Loops (power (primary depth) depth) productOperator? extendsPower depth ts e) :
    Reads (product (primary depth) depth) extendsTerm ts e :=
  h.reads extendsTerm_of_power extendsTerm_of_operator

theorem Loops.reads_expr {depth : Nat} {ts : List Token} {e : Expression}
    (h : Loops (product (primary depth) depth) sumOperator? extendsTerm depth ts e) :
    Reads (sum (primary depth) depth) extendsExpr ts e :=
  h.reads extendsExpr_of_term extendsExpr_of_operator

/-- A list of arguments and its closing parenthesis are read with enough depth left. -/
theorem nonemptyArguments_single {expression : Reader Expression} {ts rest : List Token}
    {e : Expression} (left : Nat) (h : Reads expression extendsExpr ts e) :
    nonemptyArguments expression (left + 1) (ts ++ .closeParen :: rest) = .ok ([e], rest) := by
  simp only [nonemptyArguments]
  rw [h (.closeParen :: rest) rfl]
  rfl

theorem nonemptyArguments_cons {expression : Reader Expression} {ts us rest : List Token}
    {e : Expression} {es : List Expression} {left : Nat} (h : Reads expression extendsExpr ts e)
    (others : nonemptyArguments expression left us = .ok (es, rest)) :
    nonemptyArguments expression (left + 1) (ts ++ .comma :: us) = .ok (e :: es, rest) := by
  simp only [nonemptyArguments]
  rw [h (.comma :: us) rfl]
  simp only [bind, Except.bind]
  rw [others]

/-- No expression starts with a closing parenthesis. -/
theorem sum_closeParen (depth : Nat) (rest : List Token) :
    ∃ complaint, sum (primary depth) depth (.closeParen :: rest) = .error complaint := by
  cases depth with
  | zero => exact ⟨_, rfl⟩
  | succ depth => exact ⟨_, rfl⟩

theorem arguments_of_nonempty {depth left : Nat} {tokens rest : List Token} {es : List Expression}
    (mayBeEmpty : Bool)
    (h : nonemptyArguments (sum (primary depth) depth) left tokens = .ok (es, rest)) :
    Expression.arguments mayBeEmpty (sum (primary depth) depth) left tokens = .ok (es, rest) := by
  unfold Expression.arguments
  split
  · rename_i others
    obtain ⟨complaint, refused⟩ := sum_closeParen depth others
    cases left with
    | zero => cases h
    | succ left =>
        simp only [nonemptyArguments] at h
        rw [refused] at h
        cases h
  · exact h

mutual

theorem Expr.loops : ∀ {ts : List Token} {e : Expression}, Expr ts e → ∀ {depth : Nat},
    ts.length ≤ depth →
    Loops (product (primary depth) depth) sumOperator? extendsTerm depth ts e
  | _, _, .term h, depth, enough => .first (Term.loops h enough).reads_term
  | _, _, .plus left right, depth, enough => by
      have bounds := enough
      simp only [List.length_append, List.length_cons] at bounds
      have operand := (Term.loops right (show _ ≤ depth by omega)).reads_term
      exact (Expr.loops left (by omega)).more rfl rfl operand enough
  | _, _, .minus left right, depth, enough => by
      have bounds := enough
      simp only [List.length_append, List.length_cons] at bounds
      have operand := (Term.loops right (show _ ≤ depth by omega)).reads_term
      exact (Expr.loops left (by omega)).more rfl rfl operand enough

theorem Term.loops : ∀ {ts : List Token} {e : Expression}, Term ts e → ∀ {depth : Nat},
    ts.length ≤ depth →
    Loops (power (primary depth) depth) productOperator? extendsPower depth ts e
  | _, _, .power h, depth, enough => .first (Power.reads h enough)
  | _, _, .times left right, depth, enough => by
      have bounds := enough
      simp only [List.length_append, List.length_cons] at bounds
      have operand := Power.reads right (show _ ≤ depth by omega)
      exact (Term.loops left (by omega)).more rfl rfl operand enough
  | _, _, .divide left right, depth, enough => by
      have bounds := enough
      simp only [List.length_append, List.length_cons] at bounds
      have operand := Power.reads right (show _ ≤ depth by omega)
      exact (Term.loops left (by omega)).more rfl rfl operand enough

theorem Power.reads : ∀ {ts : List Token} {e : Expression}, Power ts e → ∀ {depth : Nat},
    ts.length ≤ depth → Reads (power (primary depth) depth) extendsPower ts e
  | _, _, .chain h, depth, enough => (Chain.loops h enough).reads_power extendsPower_of_atom
  | _, _, .negated h, 0, enough => by simp at enough
  | _, _, .negated h, depth + 1, enough => by
      have operand := primary_negated (Power.reads h (Nat.le_of_succ_le_succ enough))
      exact (Loops.first operand).reads_power fun _ => id
  | _, _, .raised left right, 0, enough => by simp at enough
  | _, _, .raised left right, depth + 1, enough => by
      have bounds := enough
      simp only [List.length_append, List.length_cons] at bounds
      have operand := primary_negated (Power.reads right (show _ ≤ depth by omega))
      have looped := (Chain.loops left (show _ ≤ depth + 1 by omega)).more rfl rfl operand enough
      exact looped.reads_power fun _ => id

theorem Chain.loops : ∀ {ts : List Token} {e : Expression}, Chain ts e → ∀ {depth : Nat},
    ts.length ≤ depth → Loops (primary depth) powerOperator? extendsAtom depth ts e
  | _, _, .atom h, depth, enough => .first (Atom.reads h enough)
  | _, _, .raised left right, depth, enough => by
      have bounds := enough
      simp only [List.length_append, List.length_cons] at bounds
      have operand := Atom.reads right (show _ ≤ depth by omega)
      exact (Chain.loops left (by omega)).more rfl rfl operand enough

theorem Atom.reads : ∀ {ts : List Token} {e : Expression}, Atom ts e → ∀ {depth : Nat},
    ts.length ≤ depth → Reads (primary depth) extendsAtom ts e
  | _, _, h, 0, enough => by cases h <;> simp at enough
  | _, _, .number value, depth + 1, enough => by
      intro rest _
      simp only [List.cons_append, List.nil_append, primary, parseNumber_of_read value]
      rfl
  | _, _, .scalar name, depth + 1, enough => fun rest stops => primary_scalar stops
  | _, _, .element name index, depth + 1, enough => by
      intro rest _
      simp only [List.cons_append, List.nil_append, primary, index.reads rest]
      rfl
  | _, _, .emptyCall name, depth + 1, enough => fun rest _ => rfl
  | _, _, .call name given, depth + 1, enough => by
      intro rest _
      simp only [List.cons_append, List.length_cons, List.length_append] at enough ⊢
      have read := Arguments.reads given (show _ ≤ depth by omega) (show _ < depth by omega) rest
      simp only [List.append_assoc, List.singleton_append, primary]
      rw [arguments_of_nonempty true read]
      rfl
  | _, _, .emptyRandom, depth + 1, enough => fun rest _ => rfl
  | _, _, .builtin f given, depth + 1, enough => by
      intro rest _
      simp only [List.cons_append, List.length_cons, List.length_append] at enough ⊢
      have read := Arguments.reads given (show _ ≤ depth by omega) (show _ < depth by omega) rest
      simp only [List.append_assoc, List.singleton_append, primary]
      rw [arguments_of_nonempty (f == .rnd) read]
      rfl
  | _, _, .group inner, depth + 1, enough => by
      intro rest _
      simp only [List.cons_append, List.length_cons, List.length_append] at enough ⊢
      have looped := Expr.loops inner (show _ ≤ depth by omega)
      simp only [List.append_assoc, List.singleton_append, primary]
      rw [looped.reads_expr (.closeParen :: rest) rfl]
      rfl

theorem Arguments.reads : ∀ {ts : List Token} {es : List Expression}, Arguments ts es →
    ∀ {depth left : Nat}, ts.length ≤ depth → ts.length < left → ∀ rest,
    nonemptyArguments (sum (primary depth) depth) left (ts ++ .closeParen :: rest) = .ok (es, rest)
  | _, _, .single h, depth, left + 1, enough, more, rest =>
      nonemptyArguments_single left (Expr.loops h enough).reads_expr
  | _, _, .cons head tail, depth, left + 1, enough, more, rest => by
      simp only [List.length_append, List.length_cons] at enough more
      have others := Arguments.reads tail (show _ ≤ depth by omega) (show _ < left by omega) rest
      have first := (Expr.loops head (show _ ≤ depth by omega)).reads_expr
      rw [List.append_assoc, List.cons_append]
      exact nonemptyArguments_cons first others

end

/-- An expression followed by a token that cannot continue it is read as its tree. -/
theorem Expr.parse_eq {ts rest : List Token} {e : Expression} (h : Expr ts e)
    (stops : Stops extendsExpr rest) : Expression.parse (ts ++ rest) = .ok (e, rest) := by
  have enough : ts.length ≤ (ts ++ rest).length := by simp
  exact (h.loops enough).reads_expr rest stops

/-- An expression has one tree. -/
theorem Expr.unique {ts : List Token} {e e' : Expression} (h : Expr ts e) (h' : Expr ts e') :
    e = e' := by
  have ends : Stops extendsExpr [] := trivial
  have read := h.parse_eq ends
  rw [h'.parse_eq ends] at read
  cases read
  rfl

/-! ### Soundness

A loop is sound for a relation between the tokens read so far, their tree and the tokens that are left, if
each of its rounds is. The tokens that are left matter for powers: a negated power ends the loop it is read
in, because it has taken every caret that follows. -/

/-- A reader takes phrases only, of token lists that are not too long. -/
def IsSound {α : Type} (reader : Reader α) (depth : Nat) (Phrase : List Token → α → Prop) : Prop :=
  ∀ ts a rest, ts.length ≤ depth → reader ts = .ok (a, rest) → ∃ us, ts = us ++ rest ∧ Phrase us a

section Soundness

variable {operand : Reader Expression} {operator? : Token → Option Arithmetic} {depth : Nat}
variable {Operand Phrase : List Token → Expression → List Token → Prop}

theorem chain_sound
    (operandSound : ∀ ts e rest, ts.length ≤ depth → operand ts = .ok (e, rest) →
      ∃ us, ts = us ++ rest ∧ Operand us e rest)
    (grow : ∀ {us vs rest : List Token} {t : Token} {op : Arithmetic} {lhs rhs : Expression},
      operator? t = some op → Phrase us lhs (t :: (vs ++ rest)) → Operand vs rhs rest →
      Phrase (us ++ t :: vs) (.binary op lhs rhs) rest)
    {n : Nat} {us ts rest : List Token} {lhs e : Expression} (enough : ts.length ≤ n)
    (covered : ts.length ≤ depth) (sofar : Phrase us lhs ts)
    (h : chain operand operator? n lhs ts = .ok (e, rest)) :
    ∃ vs, ts = vs ++ rest ∧ Phrase (us ++ vs) e rest ∧
      Stops (fun t => (operator? t).isSome) rest := by
  induction n generalizing us ts lhs with
  | zero =>
      cases ts with
      | nil =>
          cases h
          exact ⟨[], rfl, by simpa using sofar, trivial⟩
      | cons t ts => simp at enough
  | succ n ih =>
      cases ts with
      | nil =>
          cases h
          exact ⟨[], rfl, by simpa using sofar, trivial⟩
      | cons t ts =>
          simp only [List.length_cons] at enough covered
          cases found : operator? t with
          | none =>
              simp only [chain, found] at h
              cases h
              exact ⟨[], rfl, by simpa using sofar, by simp [Stops, found]⟩
          | some op =>
              simp only [chain, found] at h
              obtain ⟨⟨rhs, left⟩, read, looped⟩ := bind_eq_ok.1 h
              obtain ⟨vs, rfl, isOperand⟩ := operandSound ts rhs left (by omega) read
              simp only [List.length_append] at enough covered
              have grown := grow found sofar isOperand
              obtain ⟨ws, rfl, phrase, stops⟩ := ih (by omega) (by omega) grown looped
              exact ⟨t :: (vs ++ ws), by simp, by simpa using phrase, stops⟩

theorem level_sound
    (operandSound : ∀ ts e rest, ts.length ≤ depth → operand ts = .ok (e, rest) →
      ∃ us, ts = us ++ rest ∧ Operand us e rest)
    (start : ∀ {us rest : List Token} {e : Expression}, Operand us e rest → Phrase us e rest)
    (grow : ∀ {us vs rest : List Token} {t : Token} {op : Arithmetic} {lhs rhs : Expression},
      operator? t = some op → Phrase us lhs (t :: (vs ++ rest)) → Operand vs rhs rest →
      Phrase (us ++ t :: vs) (.binary op lhs rhs) rest)
    (ts : List Token) (e : Expression) (rest : List Token) (enough : ts.length ≤ depth)
    (h : level operand operator? depth ts = .ok (e, rest)) :
    ∃ us, ts = us ++ rest ∧ Phrase us e rest ∧ Stops (fun t => (operator? t).isSome) rest := by
  obtain ⟨⟨lhs, left⟩, read, looped⟩ := bind_eq_ok.1 h
  obtain ⟨us, rfl, isOperand⟩ := operandSound ts lhs left enough read
  simp only [List.length_append] at enough
  obtain ⟨vs, rfl, phrase, stops⟩ :=
    chain_sound operandSound grow (by omega) (by omega) (start isOperand) looped
  exact ⟨us ++ vs, by simp, phrase, stops⟩

/-- Where the tokens that are left do not matter, a level is sound if its operands and its rounds are. -/
theorem level_isSound {Operand Phrase : List Token → Expression → Prop}
    (operandSound : IsSound operand depth Operand)
    (start : ∀ {us : List Token} {e : Expression}, Operand us e → Phrase us e)
    (grow : ∀ {us vs : List Token} {t : Token} {op : Arithmetic} {lhs rhs : Expression},
      operator? t = some op → Phrase us lhs → Operand vs rhs →
      Phrase (us ++ t :: vs) (.binary op lhs rhs)) :
    IsSound (level operand operator? depth) depth Phrase := by
  intro ts e rest enough h
  obtain ⟨us, split, phrase, _⟩ :=
    @level_sound operand operator? depth (fun us e _ => Operand us e) (fun us e _ => Phrase us e)
      operandSound start grow ts e rest enough h
  exact ⟨us, split, phrase⟩

end Soundness

theorem Term.grow {us vs : List Token} {t : Token} {op : Arithmetic} {lhs rhs : Expression}
    (isOperator : productOperator? t = some op) (left : Term us lhs) (right : Power vs rhs) :
    Term (us ++ t :: vs) (.binary op lhs rhs) := by
  unfold productOperator? at isOperator
  split at isOperator
  · cases isOperator
    exact .times left right
  · cases isOperator
    exact .divide left right
  · cases isOperator

theorem Expr.grow {us vs : List Token} {t : Token} {op : Arithmetic} {lhs rhs : Expression}
    (isOperator : sumOperator? t = some op) (left : Expr us lhs) (right : Term vs rhs) :
    Expr (us ++ t :: vs) (.binary op lhs rhs) := by
  unfold sumOperator? at isOperator
  split at isOperator
  · cases isOperator
    exact .plus left right
  · cases isOperator
    exact .minus left right
  · cases isOperator

/-- What is read as the operand of a power: an atom, or a minus and a power with every caret after it. -/
def IsOperand (ts : List Token) (e : Expression) (rest : List Token) : Prop :=
  Atom ts e ∨ ∃ us inner, ts = .operator .minus :: us ∧ e = negation inner ∧ Power us inner ∧
    Stops (fun t => (powerOperator? t).isSome) rest

/-- What a loop over powers has read: a chain, or a power with every caret after it. -/
def IsPowerLoop (ts : List Token) (e : Expression) (rest : List Token) : Prop :=
  Chain ts e ∨ Power ts e ∧ Stops (fun t => (powerOperator? t).isSome) rest

theorem IsPowerLoop.power {ts rest : List Token} {e : Expression} (h : IsPowerLoop ts e rest) :
    Power ts e := by
  rcases h with chain | ⟨power, _⟩
  · exact .chain chain
  · exact power

theorem IsPowerLoop.grow {us vs rest : List Token} {t : Token} {op : Arithmetic}
    {lhs rhs : Expression} (isOperator : powerOperator? t = some op)
    (sofar : IsPowerLoop us lhs (t :: (vs ++ rest))) (operand : IsOperand vs rhs rest) :
    IsPowerLoop (us ++ t :: vs) (.binary op lhs rhs) rest := by
  -- A caret follows, so what was read so far is a chain.
  have chain : Chain us lhs := by
    rcases sofar with chain | ⟨_, stops⟩
    · exact chain
    · simp [Stops, isOperator] at stops
  obtain ⟨rfl, rfl⟩ : t = .operator .caret ∧ op = .power := by
    unfold powerOperator? at isOperator
    split at isOperator
    · cases isOperator
      exact ⟨rfl, rfl⟩
    · cases isOperator
  rcases operand with atom | ⟨ws, inner, rfl, rfl, power, stops⟩
  · exact Or.inl (.raised chain atom)
  · exact Or.inr ⟨.raised chain power, stops⟩

theorem IsOperand.loop {us rest : List Token} {e : Expression} (h : IsOperand us e rest) :
    IsPowerLoop us e rest := by
  rcases h with atom | ⟨vs, inner, rfl, rfl, power, stops⟩
  · exact Or.inl (.atom atom)
  · exact Or.inr ⟨.negated power, stops⟩

/-- The levels of an expression are sound if the operands of its powers are. -/
theorem levels_sound {operand : Reader Expression} {depth : Nat}
    (operandSound : ∀ ts e rest, ts.length ≤ depth → operand ts = .ok (e, rest) →
      ∃ us, ts = us ++ rest ∧ IsOperand us e rest) :
    (∀ ts e rest, ts.length ≤ depth → power operand depth ts = .ok (e, rest) →
      ∃ us, ts = us ++ rest ∧ Power us e ∧ Stops (fun t => (powerOperator? t).isSome) rest) ∧
    IsSound (sum operand depth) depth Expr := by
  have powers : ∀ ts e rest, ts.length ≤ depth → power operand depth ts = .ok (e, rest) →
      ∃ us, ts = us ++ rest ∧ Power us e ∧ Stops (fun t => (powerOperator? t).isSome) rest := by
    intro ts e rest enough h
    obtain ⟨us, split, phrase, stops⟩ :=
      level_sound operandSound IsOperand.loop IsPowerLoop.grow ts e rest enough h
    exact ⟨us, split, phrase.power, stops⟩
  have powerSound : IsSound (power operand depth) depth Power := by
    intro ts e rest enough h
    obtain ⟨us, split, phrase, _⟩ := powers ts e rest enough h
    exact ⟨us, split, phrase⟩
  have productSound : IsSound (product operand depth) depth Term :=
    level_isSound powerSound Term.power Term.grow
  exact ⟨powers, level_isSound productSound Expr.term Expr.grow⟩

theorem arguments_sound {expression : Reader Expression} {depth : Nat}
    (expressionSound : IsSound expression depth Expr) {left : Nat} {ts rest : List Token}
    {es : List Expression} (enough : ts.length ≤ depth)
    (h : nonemptyArguments expression left ts = .ok (es, rest)) :
    ∃ us, ts = us ++ .closeParen :: rest ∧ Arguments us es := by
  induction left generalizing ts es with
  | zero => cases h
  | succ left ih =>
      obtain ⟨⟨first, more⟩, read, continued⟩ := bind_eq_ok.1 h
      obtain ⟨us, rfl, phrase⟩ := expressionSound ts first more enough read
      simp only [List.length_append] at enough
      simp only at continued
      split at continued
      · cases continued
        exact ⟨us, rfl, .single phrase⟩
      · rename_i next
        simp only [List.length_cons] at enough
        obtain ⟨⟨others, last⟩, readOthers, done⟩ := bind_eq_ok.1 continued
        cases done
        obtain ⟨vs, rfl, phrases⟩ := ih (by omega) readOthers
        exact ⟨us ++ .comma :: vs, by simp, .cons phrase phrases⟩
      · cases continued

/-- What stands between the parentheses of a call: nothing, where that is allowed, or arguments. -/
theorem call_sound {expression : Reader Expression} {depth : Nat} {mayBeEmpty : Bool}
    (expressionSound : IsSound expression depth Expr) {left : Nat} {ts rest : List Token}
    {es : List Expression} (enough : ts.length ≤ depth)
    (h : Expression.arguments mayBeEmpty expression left ts = .ok (es, rest)) :
    (mayBeEmpty = true ∧ ts = .closeParen :: rest ∧ es = []) ∨
    ∃ us, ts = us ++ .closeParen :: rest ∧ Arguments us es := by
  unfold Expression.arguments at h
  split at h
  · split at h
    · rename_i allowed
      cases h
      exact Or.inl ⟨allowed, rfl, rfl⟩
    · exact Or.inr (arguments_sound expressionSound enough h)
  · exact Or.inr (arguments_sound expressionSound enough h)

theorem read_of_parseNumber {text : String} {x : Float}
    (h : Expression.parseNumber text = .ok x) : Number.read? text = some x := by
  unfold Expression.parseNumber at h
  split at h
  · rename_i value
    cases h
    exact value
  · cases h

theorem index_sound {ts rest : List Token} {subscript : Subscript}
    (h : Expression.parseSubscript ts = .ok (subscript, rest)) :
    ∃ token, ts = token :: .closeBracket :: rest ∧ Index token subscript := by
  have closed : ∀ {given : Subscript} {left : List Token},
      Expression.closeSubscript given left = .ok (subscript, rest) →
      left = .closeBracket :: rest ∧ given = subscript := by
    intro given left closing
    unfold Expression.closeSubscript at closing
    split at closing
    · cases closing
      exact ⟨rfl, rfl⟩
    · cases closing
  unfold Expression.parseSubscript at h
  split at h
  · obtain ⟨x, value, closing⟩ := bind_eq_ok.1 h
    obtain ⟨rfl, rfl⟩ := closed closing
    exact ⟨_, rfl, .literal (read_of_parseNumber value)⟩
  · obtain ⟨rfl, rfl⟩ := closed h
    exact ⟨_, rfl, .name _⟩
  · cases h

theorem primary_sound (depth : Nat) (ts : List Token) (e : Expression) (rest : List Token)
    (enough : ts.length ≤ depth) (h : primary depth ts = .ok (e, rest)) :
    ∃ us, ts = us ++ rest ∧ IsOperand us e rest := by
  induction depth generalizing ts e rest with
  | zero => cases h
  | succ depth ih =>
      obtain ⟨powerSound, sumSound⟩ := levels_sound ih
      unfold primary at h
      split at h
      · obtain ⟨x, value, done⟩ := bind_eq_ok.1 h
        cases done
        exact ⟨_, rfl, Or.inl (.number (read_of_parseNumber value))⟩
      · rename_i name left
        obtain ⟨⟨subscript, last⟩, read, done⟩ := bind_eq_ok.1 h
        cases done
        obtain ⟨token, rfl, index⟩ := index_sound read
        exact ⟨_, rfl, Or.inl (.element name index)⟩
      · rename_i name left
        simp only [List.length_cons] at enough
        obtain ⟨⟨given, last⟩, read, done⟩ := bind_eq_ok.1 h
        cases done
        rcases call_sound sumSound (by omega) read with ⟨_, rfl, rfl⟩ | ⟨us, rfl, phrases⟩
        · exact ⟨_, rfl, Or.inl (.emptyCall name)⟩
        · exact ⟨_, by simp, Or.inl (.call name phrases)⟩
      · cases h
        exact ⟨_, rfl, Or.inl (.scalar _)⟩
      · rename_i f left
        simp only [List.length_cons] at enough
        obtain ⟨⟨given, last⟩, read, done⟩ := bind_eq_ok.1 h
        cases done
        rcases call_sound sumSound (by omega) read with ⟨isRandom, rfl, rfl⟩ | ⟨us, rfl, phrases⟩
        · obtain rfl : f = .rnd := by simpa using isRandom
          exact ⟨_, rfl, Or.inl .emptyRandom⟩
        · exact ⟨_, by simp, Or.inl (.builtin f phrases)⟩
      · cases h
      · rename_i left
        simp only [List.length_cons] at enough
        obtain ⟨⟨inner, last⟩, read, closing⟩ := bind_eq_ok.1 h
        obtain ⟨us, rfl, phrase⟩ := sumSound left inner last (by omega) read
        simp only at closing
        unfold Expression.closeGroup at closing
        split at closing
        · cases closing
          exact ⟨_, by simp, Or.inl (.group phrase)⟩
        · cases closing
      · rename_i left
        simp only [List.length_cons] at enough
        obtain ⟨⟨inner, last⟩, read, done⟩ := bind_eq_ok.1 h
        cases done
        obtain ⟨us, rfl, phrase, stops⟩ := powerSound left inner rest (by omega) read
        exact ⟨_, rfl, Or.inr ⟨us, inner, rfl, rfl, phrase, stops⟩⟩
      · cases h

/-- Whatever is read as an expression is one. -/
theorem expr_of_parse {ts rest : List Token} {e : Expression}
    (h : Expression.parse ts = .ok (e, rest)) : ∃ us, ts = us ++ rest ∧ Expr us e :=
  (levels_sound (primary_sound ts.length)).2 ts e rest (Nat.le_refl _) h

end Grammar

end Plotline

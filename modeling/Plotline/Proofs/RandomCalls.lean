/-
Module: Plotline.Proofs.RandomCalls
Layer: Proofs
Purpose: Who sees and who moves the random generator. A place in an expression is the list of turns that lead
  to it; `Expression.randomCalls` lists the places of the random calls, inner before outer and left before
  right, and a value draws one number for each of them, in this order (`Expression.value_draws`,
  `Expression.value_withNumbers`). An expression without random calls is steady: it comes to the same with
  every generator and leaves it alone. So do the statements of a program without random calls, and then its
  runs and calls (`Machine.call_withGenerator`), each from the one before.
Main exports: Evaluation.IsSteady, Evaluation.Draws, Expression.part?, Expression.randomCalls,
  Expression.Precedes, Expression.withNumbers, Expression.value_steady, Program.IsSteady,
  Machine.withGenerator, Machine.call_withGenerator, Machine.only_random_calls_draw
-/
import Plotline.Proofs.Plan
import Plotline.Proofs.Run

namespace Plotline

/-! ### Numbers drawn -/

namespace Generator

/-- The generator after some numbers have been drawn. -/
def advanced (g : Generator) (count : Nat) : Generator :=
  { g with drawn := g.drawn + count }

/-- The next numbers of a generator, in the order in which they are drawn. -/
def numbers (g : Generator) (count : Nat) : List Float :=
  (List.range count).map fun i => fraction (g.stream (g.drawn + i))

@[simp] theorem advanced_advanced (g : Generator) (first second : Nat) :
    (g.advanced first).advanced second = g.advanced (first + second) := by
  simp [advanced, Nat.add_assoc]

@[simp] theorem length_numbers (g : Generator) (count : Nat) : (g.numbers count).length = count := by
  simp [numbers]

/-- Numbers are drawn one after the other. -/
theorem numbers_add (g : Generator) (first second : Nat) :
    g.numbers (first + second) = g.numbers first ++ (g.advanced first).numbers second := by
  simp [numbers, advanced, List.range_add, Function.comp_def, Nat.add_assoc]

end Generator

namespace Evaluation

variable {α β : Type}

/-- The evaluation comes to the same with every generator, and leaves the generator alone. -/
def IsSteady (e : Evaluation α) : Prop :=
  ∃ outcome, ∀ g, e.runFrom g = (outcome, g)

namespace IsSteady

theorem pure (a : α) : IsSteady (Pure.pure a : Evaluation α) :=
  ⟨.ok a, fun _ => rfl⟩

theorem check (result : Except Diagnostic α) : IsSteady (Work.check result) :=
  ⟨result, fun _ => rfl⟩

theorem throw (problem : Diagnostic) : IsSteady (throw problem : Evaluation α) :=
  ⟨.error problem, fun _ => rfl⟩

theorem bind {x : Evaluation α} {f : α → Evaluation β} (first : IsSteady x)
    (second : ∀ a, IsSteady (f a)) : IsSteady (x >>= f) := by
  obtain ⟨outcome, same⟩ := first
  cases outcome with
  | ok a =>
      obtain ⟨last, sameLast⟩ := second a
      refine ⟨last, fun g => ?_⟩
      rw [Work.runFrom_bind, same]
      exact sameLast g
  | error problem =>
      refine ⟨.error problem, fun g => ?_⟩
      rw [Work.runFrom_bind, same]

end IsSteady

/-- Whenever the evaluation gives a result, it has drawn this many numbers. -/
def Draws (count : Nat) (e : Evaluation α) : Prop :=
  ∀ g a last, e.runFrom g = (.ok a, last) → last = g.advanced count

namespace Draws

theorem of_steady {e : Evaluation α} (steady : e.IsSteady) : Draws 0 e := by
  intro g a last ran
  obtain ⟨outcome, same⟩ := steady
  rw [same] at ran
  exact (congrArg Prod.snd ran).symm

theorem bind {x : Evaluation α} {f : α → Evaluation β} {first second : Nat} (before : Draws first x)
    (after : ∀ a, Draws second (f a)) : Draws (first + second) (x >>= f) := by
  intro g b last ran
  obtain ⟨a, next, ranFirst, ranSecond⟩ := Work.runFrom_bind_ok ran
  rw [after a next b last ranSecond, before g a next ranFirst, Generator.advanced_advanced]

end Draws

end Evaluation

open Evaluation (IsSteady Draws)

/-! ### Functions -/

namespace Function

theorem call_random (arguments : List Float) : call "RND" arguments = random := rfl

/-- The random function draws one number, which is its value. -/
theorem runFrom_random (g : Generator) :
    random.runFrom g = (.ok (Generator.fraction (g.stream g.drawn)), g.advanced 1) := rfl

/-- No function but the random one looks at the generator. -/
theorem call_steady {name : String} (other : name ≠ "RND") (arguments : List Float) :
    IsSteady (call name arguments) := by
  unfold call
  split
  · exact .throw _
  · rename_i function found
    have spelled : function.text = name := by simpa using List.find?_some found
    split
    · cases function with
      | rnd => exact absurd spelled.symm other
      | _ => exact .pure _
    · exact .throw _

end Function

namespace Expression

/-! ### Parts and places -/

/-- The operands or arguments of an expression. -/
def parts : Expression → List Expression
  | .number _ | .var _ => []
  | .call _ arguments => arguments
  | .binary _ lhs rhs => [lhs, rhs]

/-- The part of an expression at a place: each turn says which operand or argument to go into. -/
def part? : List Nat → Expression → Option Expression
  | [], e => some e
  | turn :: place, e => e.parts[turn]?.bind (part? place)

/-- The expression is a call of the random function. -/
def isRandom : Expression → Bool
  | .call function _ => function == "RND"
  | _ => false

mutual

/-- The places of the random calls in an expression: those in its parts from left to right, then the
    expression itself. -/
def randomCalls : Expression → List (List Nat)
  | .number _ | .var _ => []
  | .call function arguments =>
      randomCallsFrom 0 arguments ++ if function == "RND" then [[]] else []
  | .binary _ lhs rhs => lhs.randomCalls.map (0 :: ·) ++ rhs.randomCalls.map (1 :: ·)

/-- The places of the random calls in several parts, the first of which has a given turn. -/
def randomCallsFrom (turn : Nat) : List Expression → List (List Nat)
  | [] => []
  | e :: rest => e.randomCalls.map (turn :: ·) ++ randomCallsFrom (turn + 1) rest

end

mutual

/-- The expression with a given number in place of each random call. -/
def withNumbers (given : List Nat → Float) : Expression → Expression
  | .number x => .number x
  | .var place => .var place
  | .call function arguments =>
      if function == "RND" then .number (given []) else .call function (withNumbersFrom given 0 arguments)
  | .binary op lhs rhs =>
      .binary op (lhs.withNumbers fun place => given (0 :: place))
        (rhs.withNumbers fun place => given (1 :: place))

/-- Several parts, the first of which has a given turn, with numbers in place of their random calls. -/
def withNumbersFrom (given : List Nat → Float) (turn : Nat) : List Expression → List Expression
  | [] => []
  | e :: rest => e.withNumbers (fun place => given (turn :: place)) :: withNumbersFrom given (turn + 1) rest

end

/-- What is left of the value of an expression once its parts have their values. -/
def combine (m : Memory) : Expression → List Float → Evaluation Float
  | .number x, _ => pure x
  | .var place, _ => Work.check (m.read place)
  | .call function _, xs => Function.call function xs
  | .binary op _ _, xs => pure (op.apply (xs.headD 0.0) (xs.getD 1 0.0))

mutual

/-- What an expression inherits from its parts holds of every expression. -/
theorem induction_parts {motive : Expression → Prop}
    (step : ∀ e : Expression, (∀ part ∈ e.parts, motive part) → motive e) : ∀ e, motive e
  | .number x => step (.number x) (by simp [parts])
  | .var place => step (.var place) (by simp [parts])
  | .call function arguments => step (.call function arguments) (induction_all step arguments)
  | .binary op lhs rhs => by
      refine step (.binary op lhs rhs) ?_
      have left := induction_parts step lhs
      have right := induction_parts step rhs
      simp [parts, left, right]

theorem induction_all {motive : Expression → Prop}
    (step : ∀ e : Expression, (∀ part ∈ e.parts, motive part) → motive e) :
    ∀ es : List Expression, ∀ part ∈ es, motive part
  | [] => by simp
  | e :: rest => by
      have first := induction_parts step e
      have others := induction_all step rest
      simpa [first] using others

end

theorem randomCalls_eq (e : Expression) :
    e.randomCalls = randomCallsFrom 0 e.parts ++ if e.isRandom then [[]] else [] := by
  cases e <;> simp [randomCalls, randomCallsFrom, parts, isRandom]

/-- A value is found from the values of the parts, which come first. -/
theorem value_eq (m : Memory) (e : Expression) : e.value m = values m e.parts >>= e.combine m := by
  cases e with
  | call function arguments =>
      rw [value]
      rfl
  | _ => simp [value, values, parts, combine]

theorem parts_withNumbers {e : Expression} (other : e.isRandom = false) (given : List Nat → Float) :
    (e.withNumbers given).parts = withNumbersFrom given 0 e.parts := by
  cases e with
  | call function arguments =>
      have notRandom : (function == "RND") = false := other
      simp [withNumbers, notRandom, parts]
  | _ => simp [withNumbers, withNumbersFrom, parts]

theorem combine_withNumbers {e : Expression} (other : e.isRandom = false) (given : List Nat → Float)
    (m : Memory) : (e.withNumbers given).combine m = e.combine m := by
  cases e with
  | call function arguments =>
      have notRandom : (function == "RND") = false := other
      simp only [withNumbers, notRandom]
      rfl
  | _ =>
      rw [withNumbers]
      all_goals rfl

/-! ### The list of random calls -/

theorem mem_randomCallsFrom {es : List Expression} {turn : Nat} {place : List Nat} :
    place ∈ randomCallsFrom turn es ↔
      ∃ i part inner, place = (turn + i) :: inner ∧ es[i]? = some part ∧ inner ∈ part.randomCalls := by
  induction es generalizing turn with
  | nil => simp [randomCallsFrom]
  | cons e rest ih =>
      rw [randomCallsFrom, List.mem_append, List.mem_map, ih]
      constructor
      · rintro (⟨inner, mem, rfl⟩ | ⟨i, part, inner, rfl, found, mem⟩)
        · exact ⟨0, e, inner, rfl, rfl, mem⟩
        · exact ⟨i + 1, part, inner, by rw [Nat.add_right_comm, Nat.add_assoc], found, mem⟩
      · rintro ⟨i, part, inner, rfl, found, mem⟩
        cases i with
        | zero =>
            cases found
            exact Or.inl ⟨inner, mem, rfl⟩
        | succ i =>
            refine Or.inr ⟨i, part, inner, ?_, found, mem⟩
            rw [Nat.add_right_comm, Nat.add_assoc]

theorem nil_notMem_randomCallsFrom (es : List Expression) (turn : Nat) : [] ∉ randomCallsFrom turn es := by
  intro mem
  obtain ⟨_, _, _, same, _⟩ := mem_randomCallsFrom.1 mem
  cases same

/-- The places listed are exactly those at which a random call stands. -/
theorem mem_randomCalls (e : Expression) (place : List Nat) :
    place ∈ e.randomCalls ↔ ∃ part, e.part? place = some part ∧ part.isRandom := by
  induction e using induction_parts generalizing place with
  | step e ih =>
      rw [randomCalls_eq, List.mem_append]
      cases place with
      | nil =>
          have outermost : [] ∈ (if e.isRandom then [[]] else [] : List (List Nat)) ↔ e.isRandom := by
            cases e.isRandom <;> simp
          simp [nil_notMem_randomCallsFrom, outermost, part?]
      | cons turn inner =>
          have notOutermost : turn :: inner ∉ (if e.isRandom then [[]] else [] : List (List Nat)) := by
            cases e.isRandom <;> simp
          rw [or_iff_left notOutermost, mem_randomCallsFrom]
          constructor
          · rintro ⟨i, part, _, same, found, mem⟩
            obtain ⟨rfl, rfl⟩ := List.cons.inj same
            rw [ih part (List.mem_of_getElem? found)] at mem
            simpa [part?, found] using mem
          · rintro ⟨last, found, isRandom⟩
            obtain ⟨part, turned, reached⟩ := Option.bind_eq_some_iff.1 found
            refine ⟨turn, part, inner, by simp, turned, ?_⟩
            exact (ih part (List.mem_of_getElem? turned) inner).2 ⟨last, reached, isRandom⟩

/-- The order of places: what lies inside comes before what it lies in, and what turns off to the left comes
    before what goes further right. -/
def Precedes : List Nat → List Nat → Prop
  | [], _ => False
  | _ :: _, [] => True
  | turn :: inner, other :: place => turn < other ∨ turn = other ∧ Precedes inner place

theorem Precedes.irrefl (place : List Nat) : ¬ Precedes place place := by
  induction place with
  | nil => exact id
  | cons turn inner ih => simp [Precedes, ih]

theorem randomCallsFrom_sorted {es : List Expression}
    (sorted : ∀ part ∈ es, part.randomCalls.Pairwise Precedes) (turn : Nat) :
    (randomCallsFrom turn es).Pairwise Precedes := by
  induction es generalizing turn with
  | nil => exact .nil
  | cons e rest ih =>
      rw [randomCallsFrom, List.pairwise_append]
      refine ⟨?_, ih (fun part mem => sorted part (.tail e mem)) (turn + 1), ?_⟩
      · rw [List.pairwise_map]
        refine (sorted e (.head rest)).imp ?_
        intro first second before
        exact Or.inr ⟨rfl, before⟩
      · intro first memFirst second memSecond
        obtain ⟨inner, _, rfl⟩ := List.mem_map.1 memFirst
        obtain ⟨i, _, place, rfl, _⟩ := mem_randomCallsFrom.1 memSecond
        exact Or.inl (by omega)

/-- Random calls are listed inner before outer and left before right. -/
theorem randomCalls_sorted (e : Expression) : e.randomCalls.Pairwise Precedes := by
  induction e using induction_parts with
  | step e ih =>
      rw [randomCalls_eq, List.pairwise_append]
      refine ⟨randomCallsFrom_sorted ih 0, ?_, ?_⟩
      · cases e.isRandom <;> simp
      · intro inner memInner outer memOuter
        obtain ⟨_, _, _, rfl, _⟩ := mem_randomCallsFrom.1 memInner
        cases h : e.isRandom with
        | false => simp [h] at memOuter
        | true =>
            simp only [h, if_true, List.mem_singleton] at memOuter
            subst memOuter
            trivial

theorem nodup_randomCalls (e : Expression) : e.randomCalls.Nodup := by
  refine (randomCalls_sorted e).imp ?_
  rintro first _ before rfl
  exact Precedes.irrefl first before

theorem randomCallsFrom_eq_nil {es : List Expression} {turn : Nat} :
    randomCallsFrom turn es = [] ↔ ∀ part ∈ es, part.randomCalls = [] := by
  induction es generalizing turn with
  | nil => simp [randomCallsFrom]
  | cons e rest ih => simp [randomCallsFrom, ih]

/-- An expression has no random calls exactly if it is none and its parts have none. -/
theorem randomCalls_eq_nil {e : Expression} :
    e.randomCalls = [] ↔ e.isRandom = false ∧ ∀ part ∈ e.parts, part.randomCalls = [] := by
  rw [randomCalls_eq, List.append_eq_nil_iff, randomCallsFrom_eq_nil, and_comm]
  cases e.isRandom <;> simp

/-! ### Values -/

/-- Only the random function looks at the generator. -/
theorem combine_steady {e : Expression} (other : e.isRandom = false) (m : Memory) (xs : List Float) :
    IsSteady (e.combine m xs) := by
  cases e with
  | number x => exact .pure x
  | var place => exact .check _
  | call function arguments =>
      apply Function.call_steady
      simpa [isRandom] using other
  | binary op lhs rhs => exact .pure _

/-- A random call draws its number whatever its arguments are. -/
theorem combine_random {e : Expression} (random : e.isRandom = true) (m : Memory) (xs : List Float)
    (g : Generator) :
    (e.combine m xs).runFrom g = (.ok (Generator.fraction (g.stream g.drawn)), g.advanced 1) := by
  cases e with
  | call function arguments =>
      have isRnd : function = "RND" := by simpa [isRandom] using random
      subst isRnd
      rw [combine, Function.call_random]
      exact Function.runFrom_random g
  | _ => cases random

theorem values_steady {m : Memory} {es : List Expression} (steady : ∀ e ∈ es, IsSteady (e.value m)) :
    IsSteady (values m es) := by
  induction es with
  | nil => exact .pure []
  | cons e rest ih =>
      rw [values]
      refine .bind (steady e (.head rest)) fun x => ?_
      exact .bind (ih fun part mem => steady part (.tail e mem)) fun xs => .pure _

/-- An expression without random calls comes to the same with every generator, and draws nothing. -/
theorem value_steady (m : Memory) (e : Expression) (free : e.randomCalls = []) : IsSteady (e.value m) := by
  induction e using induction_parts with
  | step e ih =>
      obtain ⟨other, freeParts⟩ := randomCalls_eq_nil.1 free
      rw [value_eq]
      refine .bind (values_steady fun part mem => ih part mem (freeParts part mem)) fun xs => ?_
      exact combine_steady other m xs

theorem values_draws {m : Memory} {es : List Expression}
    (draws : ∀ e ∈ es, Draws e.randomCalls.length (e.value m)) (turn : Nat) :
    Draws (randomCallsFrom turn es).length (values m es) := by
  induction es generalizing turn with
  | nil => exact .of_steady (.pure [])
  | cons e rest ih =>
      rw [values, randomCallsFrom, List.length_append, List.length_map]
      refine .bind (draws e (.head rest)) fun x => ?_
      exact .bind (ih (fun part mem => draws part (.tail e mem)) (turn + 1)) fun xs => .of_steady (.pure _)

theorem combine_draws (m : Memory) (e : Expression) (xs : List Float) :
    Draws (if e.isRandom then [[]] else [] : List (List Nat)).length (e.combine m xs) := by
  cases kind : e.isRandom with
  | false => exact .of_steady (combine_steady kind m xs)
  | true =>
      intro g x last ran
      rw [combine_random kind] at ran
      exact (congrArg Prod.snd ran).symm

/-- An expression that has a value has drawn one number for each of its random calls. -/
theorem value_draws (m : Memory) (e : Expression) : Draws e.randomCalls.length (e.value m) := by
  induction e using induction_parts with
  | step e ih =>
      rw [randomCalls_eq, List.length_append, value_eq]
      exact .bind (values_draws ih 0) (combine_draws m e)

/-- The numbers given at the places of the random calls are those drawn, in order. -/
def Gives (given : List Nat → Float) (places : List (List Nat)) (g : Generator) : Prop :=
  places.map given = g.numbers places.length

theorem Gives.split {given : List Nat → Float} {first second : List (List Nat)} {g : Generator}
    (gives : Gives given (first ++ second) g) :
    Gives given first g ∧ Gives given second (g.advanced first.length) := by
  rw [Gives, List.map_append, List.length_append, Generator.numbers_add] at gives
  exact List.append_inj gives (by simp)

theorem Gives.inside {given : List Nat → Float} {places : List (List Nat)} {turn : Nat} {g : Generator}
    (gives : Gives given (places.map (turn :: ·)) g) : Gives (fun place => given (turn :: place)) places g := by
  simpa [Gives, Function.comp_def] using gives

/-- The numbers that a generator gives the random calls of an expression. -/
theorem exists_gives (e : Expression) (g : Generator) : ∃ given, Gives given e.randomCalls g := by
  refine ⟨fun place => Generator.fraction (g.stream (g.drawn + e.randomCalls.idxOf place)), ?_⟩
  rw [Gives, Generator.numbers]
  apply List.ext_getElem (by simp)
  intro i inPlaces _
  have bound : i < e.randomCalls.length := by simpa using inPlaces
  have position : e.randomCalls.idxOf e.randomCalls[i] = i := (nodup_randomCalls e).idxOf_getElem i bound
  simp [position]

/-- With the numbers drawn in place of its random calls, the first in place of the first call and so on, the
    expression has the same value and needs no generator. -/
def DrawsInOrder (m : Memory) (e : Expression) : Prop :=
  ∀ given g x last, Gives given e.randomCalls g → (e.value m).runFrom g = (.ok x, last) →
    ∀ other, ((e.withNumbers given).value m).runFrom other = (.ok x, other)

theorem values_withNumbers {m : Memory} {es : List Expression} (inOrder : ∀ e ∈ es, DrawsInOrder m e) (turn : Nat)
    {given : List Nat → Float} {g last : Generator} {xs : List Float}
    (gives : Gives given (randomCallsFrom turn es) g) (ran : (values m es).runFrom g = (.ok xs, last))
    (other : Generator) : (values m (withNumbersFrom given turn es)).runFrom other = (.ok xs, other) := by
  induction es generalizing turn g last xs with
  | nil =>
      cases ran
      rfl
  | cons e rest ih =>
      rw [randomCallsFrom] at gives
      obtain ⟨givesFirst, givesOthers⟩ := gives.split
      rw [values] at ran
      obtain ⟨x, next, first, ran⟩ := Work.runFrom_bind_ok ran
      obtain ⟨ys, _, others, ran⟩ := Work.runFrom_bind_ok ran
      cases ran
      have drawn : next = g.advanced (e.randomCalls.map (turn :: ·)).length := by
        rw [List.length_map]
        exact value_draws m e g x next first
      rw [← drawn] at givesOthers
      have firstSame := inOrder e (.head rest) _ g x next givesFirst.inside first other
      have othersSame := ih (fun part mem => inOrder part (.tail e mem)) (turn + 1) givesOthers others
      rw [withNumbersFrom, values, Work.runFrom_bind, firstSame]
      dsimp only
      rw [Work.runFrom_bind, othersSame]
      rfl

/-- Random calls draw inner before outer and left before right: each has the number that its place in the list
    of random calls says. -/
theorem value_withNumbers (m : Memory) (e : Expression) : DrawsInOrder m e := by
  induction e using induction_parts with
  | step e ih =>
      intro given g x last gives ran other
      rw [randomCalls_eq] at gives
      obtain ⟨givesParts, givesSelf⟩ := gives.split
      rw [value_eq] at ran
      obtain ⟨xs, next, partsRan, ran⟩ := Work.runFrom_bind_ok ran
      have drawn := values_draws (fun part _ => value_draws m part) 0 g xs next partsRan
      rw [← drawn] at givesSelf
      cases kind : e.isRandom with
      | true =>
          rw [combine_random kind] at ran
          cases ran
          simp only [kind, if_true, Gives, List.map_cons, List.map_nil] at givesSelf
          have number : given [] = Generator.fraction (next.stream next.drawn) := (List.cons.inj givesSelf).1
          cases e with
          | call function arguments =>
              have isRnd : (function == "RND") = true := kind
              rw [withNumbers, if_pos isRnd, number]
              rfl
          | _ => cases kind
      | false =>
          have partsSame := values_withNumbers ih 0 givesParts partsRan other
          obtain ⟨outcome, same⟩ := combine_steady kind m xs
          rw [same] at ran
          cases ran
          rw [value_eq, parts_withNumbers kind, combine_withNumbers kind, Work.runFrom_bind, partsSame]
          exact same other

end Expression

/-! ### Programs without random calls -/

namespace Command

/-- The expressions that a command evaluates, in order. -/
def operands : Command → List Expression
  | .drawStart width height => [width, height]
  | .branch lhs _ rhs _ => [lhs, rhs]
  | .assign _ value => [value]
  | .line x1 y1 x2 y2 _ => [x1, y1, x2, y2]
  | .plot x y radius _ _ => [x, y, radius]
  | .print value => [value]
  | .rectangle x1 y1 x2 y2 _ _ => [x1, y1, x2, y2]
  | .dim _ _ | .drawFinish | .halt | .goto _ | .input _ | .printText _ => []

/-- No expression of the command has a random call. -/
def IsSteady (c : Command) : Prop :=
  ∀ e ∈ c.operands, e.randomCalls = []

instance : DecidablePred IsSteady :=
  fun c => inferInstanceAs (Decidable (∀ e ∈ c.operands, e.randomCalls = []))

/-- A command without random calls is planned alike with every generator, and its planning draws nothing. -/
theorem plan_steady {c : Command} (free : c.IsSteady) (program : Program) (memory : Memory) (canvas : Canvas) :
    Evaluation.IsSteady (c.plan program memory canvas) := by
  have value : ∀ e ∈ c.operands, Evaluation.IsSteady (e.value memory) :=
    fun e mem => e.value_steady memory (free e mem)
  have figure : ∀ f, Evaluation.IsSteady (planFigure canvas f) :=
    fun f => .bind (.check _) fun _ => .pure _
  cases c with
  | dim name length => exact .bind (.check _) fun _ => .pure _
  | drawStart width height =>
      simp only [operands, List.forall_mem_cons] at value
      obtain ⟨first, second, _⟩ := value
      exact .bind first fun _ => .bind second fun _ => .bind (.check _) fun _ => .pure _
  | drawFinish => exact .bind (.check _) fun _ => .pure _
  | halt => exact .pure _
  | goto target => exact .bind (.check _) fun _ => .pure _
  | branch lhs comparison rhs target =>
      simp only [operands, List.forall_mem_cons] at value
      obtain ⟨first, second, _⟩ := value
      refine .bind first fun x => .bind second fun y => ?_
      split
      · exact .bind (.check _) fun _ => .pure _
      · exact .pure _
  | input name => exact ⟨_, plan_input name⟩
  | assign place e =>
      have assigned := value e (by simp [operands])
      exact .bind assigned fun _ => .bind (.check _) fun _ => .pure _
  | line x1 y1 x2 y2 color =>
      simp only [operands, List.forall_mem_cons] at value
      obtain ⟨first, second, third, fourth, _⟩ := value
      exact .bind first fun _ => .bind second fun _ => .bind third fun _ => .bind fourth fun _ => figure _
  | plot x y radius color filled =>
      simp only [operands, List.forall_mem_cons] at value
      obtain ⟨first, second, third, _⟩ := value
      exact .bind first fun _ => .bind second fun _ => .bind third fun _ => figure _
  | print e => exact .bind (value e (by simp [operands])) fun _ => .pure _
  | printText text => exact .pure _
  | rectangle x1 y1 x2 y2 color filled =>
      simp only [operands, List.forall_mem_cons] at value
      obtain ⟨first, second, third, fourth, _⟩ := value
      exact .bind first fun _ => .bind second fun _ => .bind third fun _ => .bind fourth fun _ => figure _

end Command

/-- No statement of the program has a random call. -/
def Program.IsSteady (p : Program) : Prop :=
  ∀ address s, p.statement? address = some s → s.command.IsSteady

/-- No statement of the listing has a random call. -/
def Listing.IsSteady (l : Listing) : Prop :=
  ∀ s ∈ l.statements, s.command.IsSteady

instance : DecidablePred Listing.IsSteady :=
  fun l => inferInstanceAs (Decidable (∀ s ∈ l.statements, s.command.IsSteady))

theorem Program.isSteady_ofStatements {l : Listing} (free : l.IsSteady) :
    (Program.ofStatements l.statements).IsSteady := by
  intro address s found
  apply free s
  exact List.mem_of_getElem? (by simpa [statement?, ofStatements] using found)

/-! ### Two machines that differ in their generators -/

/-- The machine with another generator. -/
def Machine.withGenerator (m : Machine) (generator : Generator) : Machine :=
  { m with generator }

/-- The visit of the machine with another generator. -/
def Visit.withGenerator (v : Visit) (generator : Generator) : Visit :=
  { v with machine := v.machine.withGenerator generator }

namespace Machine

theorem carryOut_withGenerator (m : Machine) (g : Generator) (action : Action) :
    (m.withGenerator g).carryOut action =
      ((m.carryOut action).1, (m.carryOut action).2.withGenerator g) := by
  cases action <;> rfl

/-- A statement without random calls has the same effect with every generator, and leaves it alone. -/
theorem step_withGenerator {s : Statement} (free : s.command.IsSteady) (m : Machine) (g : Generator) :
    (m.withGenerator g).step s = ((m.step s).1, (m.step s).2.withGenerator g) := by
  obtain ⟨outcome, same⟩ := Command.plan_steady free m.program m.memory m.canvas
  have planned : m.planned s.command = (outcome, m.generator) := same m.generator
  have plannedOther : (m.withGenerator g).planned s.command = (outcome, g) := same g
  rw [step, step, planned, plannedOther]
  cases outcome with
  | ok action => exact carryOut_withGenerator m.advance g action
  | error problem => rfl

theorem withGenerator_isUnseen {p : Program} (free : p.IsSteady) (g : Generator) :
    IsUnseen (·.withGenerator g) p where
  program _ := rfl
  pc _ := rfl
  stop _ := rfl
  step m address s found := step_withGenerator (free address s found) m g

theorem execute_withGenerator {m : Machine} (free : m.program.IsSteady) (g : Generator) (budget : Nat) :
    (m.withGenerator g).execute budget =
        ((m.execute budget).1, (m.execute budget).2.withGenerator g) ∧
      (m.withGenerator g).executeVisits budget = (m.executeVisits budget).map (·.withGenerator g) := by
  by_cases ready : m.IsReady
  · have readyOther : (m.withGenerator g).IsReady := ready
    rw [ready.execute_eq_run, readyOther.execute_eq_run, ready.executeVisits_eq, readyOther.executeVisits_eq]
    exact (withGenerator_isUnseen free g).run budget
  · have notReadyOther : ¬ (m.withGenerator g).IsReady := ready
    rw [executeVisits_of_not_ready ready, executeVisits_of_not_ready notReadyOther]
    refine ⟨?_, rfl⟩
    by_cases nothing : m.pending = []
    · have nothingOther : (m.withGenerator g).pending = [] := nothing
      cases state : m.state with
      | stopped => rw [execute_of_stopped nothing state, execute_of_stopped nothingOther state]
      | waiting name =>
          rw [execute_of_waiting nothing state, execute_of_waiting nothingOther state]
          have sameNote : (m.withGenerator g).redo = m.redo := rfl
          rw [sameNote]
          split
          · rfl
          · rfl
      | running => exact absurd ⟨nothing, state⟩ ready
    · have someOther : (m.withGenerator g).pending ≠ [] := nothing
      rw [execute_of_pending nothing, execute_of_pending someOther]
      rfl

theorem enter_withGenerator (m : Machine) (g : Generator) (text : String) :
    (m.withGenerator g).enter text = ((m.enter text).1, (m.enter text).2.withGenerator g) := by
  have sameState : (m.withGenerator g).state = m.state := rfl
  have sameMemory : (m.withGenerator g).memory = m.memory := rfl
  unfold enter
  rw [sameState, sameMemory]
  split
  · split
    · rfl
    · split
      · rfl
      · rfl
  · rfl

/-- A call on a program without random calls is replied to alike with every generator, visits the same
    statements, and leaves the generator alone. -/
theorem call_withGenerator {m : Machine} (free : m.program.IsSteady) (g : Generator) (c : Call) :
    (m.withGenerator g).call c = ((m.call c).1, (m.call c).2.withGenerator g) ∧
      (m.withGenerator g).callVisits c = (m.callVisits c).map (·.withGenerator g) := by
  cases c with
  | load listing => exact ⟨rfl, rfl⟩
  | execute budget =>
      obtain ⟨same, sameVisits⟩ := execute_withGenerator free g budget
      refine ⟨?_, sameVisits⟩
      simp only [call, same]
  | enter text =>
      refine ⟨?_, rfl⟩
      simp only [call, enter_withGenerator]
  | interrupt =>
      have sameRunning : (m.withGenerator g).isRunning = m.isRunning := rfl
      refine ⟨?_, rfl⟩
      simp only [call, interrupt]
      rw [sameRunning]
      split
      · rfl
      · rfl
  | fail problem => exact ⟨rfl, rfl⟩

theorem call_isSteady {m : Machine} {c : Call} (free : m.program.IsSteady)
    (freeLoad : ∀ listing, c = .load listing → listing.IsSteady) : (m.call c).2.program.IsSteady := by
  by_cases loads : ∃ listing, c = .load listing
  · obtain ⟨listing, rfl⟩ := loads
    exact Program.isSteady_ofStatements (freeLoad listing rfl)
  · rw [call_program m c fun listing same => loads ⟨listing, same⟩]
    exact free

/-- Calls on programs without random calls are replied to alike with every generator, visit the same
    statements, and leave the generator alone. -/
theorem calls_withGenerator {m : Machine} {calls : List Call} (free : m.program.IsSteady)
    (freeLoads : ∀ listing, .load listing ∈ calls → listing.IsSteady) (g : Generator) :
    (m.withGenerator g).replies calls = m.replies calls ∧
      (m.withGenerator g).after calls = (m.after calls).withGenerator g ∧
      (m.withGenerator g).visits calls = (m.visits calls).map (·.withGenerator g) := by
  induction calls generalizing m with
  | nil => exact ⟨rfl, rfl, rfl⟩
  | cons c rest ih =>
      obtain ⟨same, sameVisits⟩ := call_withGenerator free g c
      have freeNext : (m.call c).2.program.IsSteady :=
        call_isSteady free fun listing loads => freeLoads listing (by simp [loads])
      obtain ⟨replied, ended, visited⟩ :=
        ih freeNext fun listing loaded => freeLoads listing (.tail c loaded)
      simp only [replies, after, visits, same, sameVisits, replied, ended, visited, List.map_append]
      exact ⟨trivial, trivial, trivial⟩

/-- Only random calls see or move the generator. Take a machine and the same machine with another generator. If
    neither its program nor any listing that is loaded has a random call, then both give the same replies to
    any calls, stay the same but for their generators, and find their generators as they were at every
    statement and at the end. In every program, the list of the random calls of an expression holds the places
    at which one stands, inner before outer and left before right. An expression that has a value has drawn
    one number for each of them, and has the same value, with no generator at all, if the numbers drawn are
    written in their places in this order. A random call has a value whenever its arguments have, and it is
    the number drawn after them, whatever they are. -/
theorem only_random_calls_draw :
    (∀ (m : Machine) (g : Generator) (calls : List Call), m.program.IsSteady →
      (∀ listing, .load listing ∈ calls → listing.IsSteady) →
      let other : Machine := { m with generator := g }
      other.replies calls = m.replies calls ∧
      other.after calls = { m.after calls with generator := g } ∧
      (m.after calls).generator = m.generator ∧
      (∀ v ∈ m.visits calls, v.machine.generator = m.generator) ∧
      ∀ v ∈ other.visits calls, v.machine.generator = g) ∧
    ∀ (memory : Memory) (e : Expression),
      (∀ place, place ∈ e.randomCalls ↔ ∃ part, e.part? place = some part ∧ part.isRandom) ∧
      e.randomCalls.Pairwise Expression.Precedes ∧
      (∀ g x last, (e.value memory).runFrom g = (.ok x, last) →
        last = g.advanced e.randomCalls.length ∧
        ∃ given, e.randomCalls.map given = g.numbers e.randomCalls.length ∧
          ∀ other, ((e.withNumbers given).value memory).runFrom other = (.ok x, other)) ∧
      (e.isRandom → ∀ g xs next, (Expression.values memory e.parts).runFrom g = (.ok xs, next) →
        ∃ x, (e.value memory).runFrom g = (.ok x, next.advanced 1) ∧ next.numbers 1 = [x]) := by
  constructor
  · intro m g calls free freeLoads other
    -- A visit of the machine with a generator is one to which this generator has been given.
    have keeps : ∀ generator, ∀ v ∈ (m.withGenerator generator).visits calls,
        v.machine.generator = generator := by
      intro generator v mem
      rw [(calls_withGenerator free freeLoads generator).2.2] at mem
      obtain ⟨_, _, rfl⟩ := List.mem_map.1 mem
      rfl
    obtain ⟨replied, ended, _⟩ := calls_withGenerator free freeLoads g
    have own : (m.after calls).generator = m.generator := by
      have same : m.after calls = (m.after calls).withGenerator m.generator :=
        (calls_withGenerator free freeLoads m.generator).2.1
      rw [same]
      rfl
    exact ⟨replied, ended, own, keeps m.generator, keeps g⟩
  · intro memory e
    refine ⟨e.mem_randomCalls, e.randomCalls_sorted, ?_, ?_⟩
    · intro g x last ran
      obtain ⟨given, gives⟩ := e.exists_gives g
      exact ⟨e.value_draws memory g x last ran, given, gives,
        e.value_withNumbers memory given g x last gives ran⟩
    · intro random g xs next ran
      refine ⟨Generator.fraction (next.stream next.drawn), ?_, rfl⟩
      rw [Expression.value_eq, Work.runFrom_bind, ran]
      exact Expression.combine_random random memory xs next

/-- A program without random calls, which prints until it is interrupted. -/
def endlessPrint : Listing :=
  Listing.load "10 LET X = SQR(81)\n20 PRINT X - 1\n30 GOTO 20\n"

/-- A random call inside another, and a third to the right of both. -/
def nestedCalls : Expression :=
  .binary .minus (.call "RND" [.call "RND" []]) (.call "RND" [])

/-- A program without random calls is replied to alike with two generators, and a difference of random calls
    draws three numbers. -/
theorem only_random_calls_draw_samples :
    endlessPrint.IsSteady ∧
    (new (.constant 0)).replies [.load endlessPrint, .execute 9, .interrupt, .execute 9] =
      (new (.seeded 7)).replies [.load endlessPrint, .execute 9, .interrupt, .execute 9] ∧
    nestedCalls.randomCalls = [[0, 0], [0], [1]] ∧
    ∃ x, (nestedCalls.value .empty).runFrom (.seeded 7) = (.ok x, (Generator.seeded 7).advanced 3) := by
  have free : endlessPrint.IsSteady := by decide +kernel
  have noProgram : (new (.seeded 7)).program.IsSteady := by
    simp [Program.IsSteady, new, Program.empty, Program.statement?]
  have places : nestedCalls.randomCalls = [[0, 0], [0], [1]] := by decide +kernel
  obtain ⟨x, last, ran⟩ : ∃ x last, (nestedCalls.value .empty).runFrom (.seeded 7) = (.ok x, last) :=
    ⟨_, _, rfl⟩
  obtain ⟨alike, counted⟩ := only_random_calls_draw
  obtain ⟨_, _, drawn, _⟩ := counted .empty nestedCalls
  refine ⟨free, ?_, places, x, ?_⟩
  · refine (alike (new (.seeded 7)) (.constant 0) _ noProgram ?_).1
    simp [free]
  · rw [ran, (drawn _ _ _ ran).1, places]
    rfl

end Machine

end Plotline

/-
Module: Plotline.Proofs.DrawnDocument
Layer: Proofs
Purpose: A finished drawing is exactly what was drawn. The history of a machine says which drawing is under
  way (`Machine.UnderWay`): its size is what the last start of a drawing evaluated to, and its figures are
  those of the statements carried out since, in order, each with the values that its operands had then. In
  every machine that can be reached the canvas is empty or shows the drawing under way
  (`Machine.Depicts.isKept`), so the document that a finish hands out is that of the drawing under way.
Main exports: Visit.Starts, Visit.Draws, Machine.UnderWay, Canvas.showing, Machine.Depicts,
  Machine.Depicts.isKept, Canvas.IsProper, Machine.underWay_of_drawing, Machine.drawing_is_what_was_drawn
-/
import Mathlib.Data.List.Forall2
import Plotline.Proofs.InPlace
import Plotline.Proofs.Reports

namespace Plotline

namespace Command

/-- A command that starts or finishes a drawing. -/
def isBoundary : Command → Bool
  | .drawStart .. | .drawFinish => true
  | _ => false

theorem isBoundary_of_isFigure {c : Command} (figure : c.isFigure = true) : c.isBoundary = false := by
  cases c with
  | line | plot | rectangle => rfl
  | _ => cases figure

theorem isDrawing_eq (c : Command) : c.isDrawing = (c.isBoundary || c.isFigure) := by
  cases c <;> rfl

end Command

namespace Visit

/-- The values that operands have, from left to right, when the visited statement is carried out. -/
def Evaluates (v : Visit) (operands : List Expression) (values : List Float) : Prop :=
  ((Expression.values v.machine.memory operands).runFrom v.machine.generator).1 = .ok values

/-- The visited statement starts a drawing of a given size. -/
def Starts (v : Visit) (width height : Float) : Prop :=
  ∃ w h, v.statement.command = .drawStart w h ∧ v.Evaluates [w, h] [width, height]

/-- The visited statement draws a figure from the values of its operands. -/
inductive Draws (v : Visit) : Figure → Prop where
  | circle {x y r : Expression} {color : String} {filled : Bool} {a b radius : Float}
      (command : v.statement.command = .plot x y r color filled)
      (evaluated : v.Evaluates [x, y, r] [a, b, radius]) : Draws v (.circle a b radius color filled)
  | line {x1 y1 x2 y2 : Expression} {color : String} {a b c d : Float}
      (command : v.statement.command = .line x1 y1 x2 y2 color)
      (evaluated : v.Evaluates [x1, y1, x2, y2] [a, b, c, d]) : Draws v (.line a b c d color)
  | rectangle {x1 y1 x2 y2 : Expression} {color : String} {filled : Bool} {a b c d : Float}
      (command : v.statement.command = .rectangle x1 y1 x2 y2 color filled)
      (evaluated : v.Evaluates [x1, y1, x2, y2] [a, b, c, d]) : Draws v (.rectangle a b c d color filled)

end Visit

/-! ### Operands -/

theorem Expression.runFrom_values_nil (m : Memory) (g : Generator) :
    (Expression.values m []).runFrom g = (.ok [], g) := rfl

/-- Values found one after the other, each with the generator that the one before leaves. -/
theorem Expression.runFrom_values_cons {m : Memory} {e : Expression} {rest : List Expression} {x : Float}
    {xs : List Float} {g next last : Generator} (first : (e.value m).runFrom g = (.ok x, next))
    (others : (Expression.values m rest).runFrom next = (.ok xs, last)) :
    (Expression.values m (e :: rest)).runFrom g = (.ok (x :: xs), last) := by
  simp only [Expression.values, Work.runFrom_bind, first, others, Work.runFrom_pure]

/-- Four operands of a command that has been planned, with what came after them. -/
theorem Expression.runFrom_four {m : Memory} {e1 e2 e3 e4 : Expression} {α : Type}
    {f : Float → Float → Float → Float → Evaluation α} {result : α} {g last : Generator}
    (evaluated : (do
      let a ← e1.value m
      let b ← e2.value m
      let c ← e3.value m
      let d ← e4.value m
      f a b c d).runFrom g = (.ok result, last)) :
    ∃ a b c d next, (Expression.values m [e1, e2, e3, e4]).runFrom g = (.ok [a, b, c, d], next) ∧
      (f a b c d).runFrom next = (.ok result, last) := by
  obtain ⟨a, _, first, rest⟩ := Work.runFrom_bind_ok evaluated
  obtain ⟨b, _, second, rest⟩ := Work.runFrom_bind_ok rest
  obtain ⟨c, _, third, rest⟩ := Work.runFrom_bind_ok rest
  obtain ⟨d, next, fourth, rest⟩ := Work.runFrom_bind_ok rest
  refine ⟨a, b, c, d, next, ?_, rest⟩
  exact runFrom_values_cons first (runFrom_values_cons second
    (runFrom_values_cons third (runFrom_values_cons fourth (runFrom_values_nil m next))))

theorem Command.planFigure_eq {canvas : Canvas} {figure other : Figure} {g last : Generator}
    (planned : (planFigure canvas figure).runFrom g = (.ok (.draw other), last)) : other = figure := by
  obtain ⟨_, _, _, planned⟩ := Work.runFrom_bind_ok planned
  cases planned
  rfl

namespace Visit

variable {v : Visit} {generator : Generator}

/-- A drawing is planned to be started with the size that the operands have. -/
theorem starts_of_planned {width height : Float}
    (planned : v.machine.planned v.statement.command = (.ok (.startDrawing width height), generator)) :
    v.Starts width height := by
  rcases v with ⟨m, label, command⟩
  cases Command.plan_returns command m.generator _ _ planned with
  | @start w h =>
      obtain ⟨_, _, first, planned⟩ := Work.runFrom_bind_ok planned
      obtain ⟨_, _, second, planned⟩ := Work.runFrom_bind_ok planned
      obtain ⟨_, _, _, planned⟩ := Work.runFrom_bind_ok planned
      cases planned
      have both := Expression.runFrom_values_cons first
        (Expression.runFrom_values_cons second (Expression.runFrom_values_nil _ _))
      exact ⟨w, h, rfl, congrArg Prod.fst both⟩

/-- A figure is planned with the values that the operands have. -/
theorem draws_of_planned {figure : Figure}
    (planned : v.machine.planned v.statement.command = (.ok (.draw figure), generator)) :
    v.Draws figure := by
  rcases v with ⟨m, label, command⟩
  cases Command.plan_returns command m.generator _ _ planned with
  | figure f isFigure opened =>
      cases command with
      | plot x y r color filled =>
          obtain ⟨_, _, first, planned⟩ := Work.runFrom_bind_ok planned
          obtain ⟨_, _, second, planned⟩ := Work.runFrom_bind_ok planned
          obtain ⟨_, _, third, planned⟩ := Work.runFrom_bind_ok planned
          have all := Expression.runFrom_values_cons first (Expression.runFrom_values_cons second
            (Expression.runFrom_values_cons third (Expression.runFrom_values_nil _ _)))
          rw [Command.planFigure_eq planned]
          exact .circle rfl (congrArg Prod.fst all)
      | line x1 y1 x2 y2 color =>
          obtain ⟨_, _, _, _, _, all, planned⟩ := Expression.runFrom_four planned
          rw [Command.planFigure_eq planned]
          exact .line rfl (congrArg Prod.fst all)
      | rectangle x1 y1 x2 y2 color filled =>
          obtain ⟨_, _, _, _, _, all, planned⟩ := Expression.runFrom_four planned
          rw [Command.planFigure_eq planned]
          exact .rectangle rfl (congrArg Prod.fst all)
      | _ => cases isFigure

theorem Draws.isFigure {figure : Figure} (draws : v.Draws figure) :
    v.statement.command.isFigure = true := by
  cases draws with
  | circle command | line command | rectangle command => rw [command]; rfl

end Visit

/-! ### Markup -/

-- Said of any texts: the two sides are compared character by character, and the texts of numbers would be
-- computed with them.

theorem Canvas.rootTag_markup (width height : String) :
    "<svg" ++ Figure.attributeText "xmlns" "http://www.w3.org/2000/svg" ++
        Figure.attributeText "width" width ++ Figure.attributeText "height" height ++ ">" =
      "<svg xmlns=\"http://www.w3.org/2000/svg\" width=\"" ++ width ++
        "\" height=\"" ++ height ++ "\">" := by
  apply String.toList_inj.1
  simp [Figure.attributeText]

namespace Figure

theorem circle_markup (cx cy r stroke fill : String) :
    markup "circle" [("cx", cx), ("cy", cy), ("r", r), ("stroke", stroke), ("fill", fill)] =
      "<circle cx=\"" ++ cx ++ "\" cy=\"" ++ cy ++ "\" r=\"" ++ r ++ "\" stroke=\"" ++ stroke ++
        "\" fill=\"" ++ fill ++ "\" />" := by
  apply String.toList_inj.1
  simp [markup, attributeText, String.join]

theorem line_markup (x1 y1 x2 y2 stroke : String) :
    markup "line" [("x1", x1), ("y1", y1), ("x2", x2), ("y2", y2), ("stroke", stroke)] =
      "<line x1=\"" ++ x1 ++ "\" y1=\"" ++ y1 ++ "\" x2=\"" ++ x2 ++ "\" y2=\"" ++ y2 ++
        "\" stroke=\"" ++ stroke ++ "\" />" := by
  apply String.toList_inj.1
  simp [markup, attributeText, String.join]

theorem rectangle_markup (x y width height stroke fill : String) :
    markup "rect" [("x", x), ("y", y), ("width", width), ("height", height), ("stroke", stroke),
        ("fill", fill)] =
      "<rect x=\"" ++ x ++ "\" y=\"" ++ y ++ "\" width=\"" ++ width ++ "\" height=\"" ++ height ++
        "\" stroke=\"" ++ stroke ++ "\" fill=\"" ++ fill ++ "\" />" := by
  apply String.toList_inj.1
  simp [markup, attributeText, String.join]

end Figure

/-! ### Canvases -/

namespace Canvas

/-- The canvas of a drawing of a given size that has some figures. -/
def showing (width height : Float) (figures : List Figure) : Canvas :=
  { elements := (rootTag width height :: figures.map Figure.element).toArray, isOpen := true }

theorem blank_eq_showing (width height : Float) : blank width height = showing width height [] := rfl

theorem showing_add (width height : Float) (figures : List Figure) (f : Figure) :
    (showing width height figures).add f = showing width height (figures ++ [f]) := by
  simp [add, showing]

theorem document_showing (width height : Float) (figures : List Figure) :
    (showing width height figures).document =
      "\n".intercalate (rootTag width height :: figures.map Figure.element ++ ["</svg>"]) ++ "\n" := rfl

/-- A canvas without a drawing has no lines, and one with a drawing has the opening tag first. -/
structure IsProper (c : Canvas) : Prop where
  closed : c.isOpen = false → c.elements = #[]
  opened : c.isOpen = true → ∃ width height, c.elements[0]? = some (rootTag width height)

theorem IsProper.empty : IsProper .empty := ⟨fun _ => rfl, by simp [Canvas.empty]⟩

theorem IsProper.showing (width height : Float) (figures : List Figure) :
    IsProper (.showing width height figures) :=
  ⟨by simp [Canvas.showing], fun _ => ⟨width, height, by simp [Canvas.showing]⟩⟩

theorem IsProper.add {c : Canvas} (proper : c.IsProper) (opened : c.isOpen = true) (f : Figure) :
    (c.add f).IsProper := by
  obtain ⟨width, height, first⟩ := proper.opened opened
  have inside : 0 < c.elements.size := (Array.getElem?_eq_some_iff.1 first).1
  refine ⟨?_, fun _ => ⟨width, height, ?_⟩⟩
  · simp [Canvas.add, opened]
  · rw [Canvas.add, Array.getElem?_push, if_neg (Nat.ne_of_lt inside), first]

/-- The canvas after some operations. -/
def afterOperations (c : Canvas) : List Operation → Canvas
  | [] => c
  | op :: rest => (c.perform op).2.afterOperations rest

/-- An operation that fails leaves the canvas as it was. -/
theorem perform_failed {c : Canvas} {op : Operation} {problem : Diagnostic}
    (failed : (c.perform op).1 = .error problem) : (c.perform op).2 = c :=
  op.work_checksFirst.failed failed

/-- A drawing is started on an empty canvas only, and drawn on and finished where one was started. -/
theorem IsProper.perform {c : Canvas} (proper : c.IsProper) (op : Operation) :
    (c.perform op).2.IsProper := by
  rw [Canvas.perform, op.work_checksFirst c]
  cases checked : op.check c with
  | error problem => exact proper
  | ok _ =>
      cases op with
      | start width height => exact .showing width height []
      | draw figure => exact proper.add (Command.requireOpen_ok checked) figure
      | finish => exact .empty
      | clear => exact .empty

theorem IsProper.afterOperations {c : Canvas} (proper : c.IsProper) (operations : List Operation) :
    (c.afterOperations operations).IsProper := by
  induction operations generalizing c with
  | nil => exact proper
  | cons op rest ih => exact ih (proper.perform op)

end Canvas

namespace Machine

/-! ### The drawing under way -/

/-- The drawing that is under way after some visits: the last of them to start or finish a drawing started
    one of the given size, and since then no statement has failed and the figures have been drawn, one by
    each statement that draws, in order. -/
def UnderWay (ran : List Visit) (width height : Float) (figures : List Figure) : Prop :=
  ∃ earlier start since, ran = earlier ++ start :: since ∧
    start.Starts width height ∧
    (∀ v ∈ since, v.statement.command.isBoundary = false ∧ v.problem? = none) ∧
    List.Forall₂ Visit.Draws (since.filter (·.statement.command.isFigure)) figures

namespace UnderWay

variable {ran : List Visit} {width height : Float} {figures : List Figure} {v : Visit}

theorem start (ran : List Visit) (starts : v.Starts width height) :
    UnderWay (ran ++ [v]) width height [] :=
  ⟨ran, v, [], rfl, starts, by simp, .nil⟩

/-- A statement that carries on with the drawing adds the figures that it draws. -/
theorem extend (underWay : UnderWay ran width height figures)
    (inside : v.statement.command.isBoundary = false) (well : v.problem? = none) {drawn : List Figure}
    (draws : List.Forall₂ Visit.Draws ([v].filter (·.statement.command.isFigure)) drawn) :
    UnderWay (ran ++ [v]) width height (figures ++ drawn) := by
  obtain ⟨earlier, start, since, rfl, starts, carriedOn, drew⟩ := underWay
  refine ⟨earlier, start, since ++ [v], by simp, starts, ?_, ?_⟩
  · intro u mem
    rcases List.mem_append.1 mem with before | here
    · exact carriedOn u before
    · rw [List.mem_singleton.1 here]
      exact ⟨inside, well⟩
  · rw [List.filter_append]
    exact List.rel_append drew draws

theorem draw (underWay : UnderWay ran width height figures) {f : Figure} (draws : v.Draws f)
    (well : v.problem? = none) : UnderWay (ran ++ [v]) width height (figures ++ [f]) := by
  have drawn : [v].filter (·.statement.command.isFigure) = [v] := by simp [draws.isFigure]
  refine underWay.extend (Command.isBoundary_of_isFigure draws.isFigure) well ?_
  rw [drawn]
  exact .cons draws .nil

/-- A statement that has nothing to do with drawing changes nothing. -/
theorem pass (underWay : UnderWay ran width height figures)
    (other : v.statement.command.isDrawing = false) (well : v.problem? = none) :
    UnderWay (ran ++ [v]) width height figures := by
  rw [Command.isDrawing_eq, Bool.or_eq_false_iff] at other
  obtain ⟨inside, notFigure⟩ := other
  have nothing : [v].filter (·.statement.command.isFigure) = [] := by simp [notFigure]
  have carriedOn : UnderWay (ran ++ [v]) width height (figures ++ []) := by
    refine underWay.extend inside well ?_
    rw [nothing]
    exact .nil
  rwa [List.append_nil] at carriedOn

end UnderWay

/-- The canvas is empty, or shows the drawing that is under way. -/
def Depicts (ran : List Visit) (c : Canvas) : Prop :=
  c = .empty ∨ ∃ width height figures, UnderWay ran width height figures ∧ c = .showing width height figures

namespace Depicts

variable {ran : List Visit} {c : Canvas} {m : Machine}

theorem of_open (depicts : Depicts ran c) (opened : c.isOpen = true) :
    ∃ width height figures, UnderWay ran width height figures ∧ c = .showing width height figures := by
  rcases depicts with rfl | shown
  · cases opened
  · exact shown

theorem isProper (depicts : Depicts ran c) : c.IsProper := by
  rcases depicts with rfl | ⟨width, height, figures, _, rfl⟩
  · exact .empty
  · exact .showing width height figures

theorem pass (depicts : Depicts ran c) {v : Visit} (other : v.statement.command.isDrawing = false)
    (well : v.problem? = none) : Depicts (ran ++ [v]) c := by
  rcases depicts with rfl | ⟨width, height, figures, underWay, rfl⟩
  · exact Or.inl rfl
  · exact Or.inr ⟨width, height, figures, underWay.pass other well, rfl⟩

/-- After a statement the canvas shows one figure more, a new drawing, none, or the same one. A statement
    that fails leaves nothing to be shown. -/
theorem step (depicts : Depicts ran m.canvas) (s : Statement) :
    Depicts (ran ++ [⟨m, s⟩]) (m.step s).2.canvas := by
  rcases s with ⟨label, command⟩
  rcases hstep : m.step ⟨label, command⟩ with ⟨event, next⟩
  rcases step_cases hstep with ⟨action, generator, planned, carried⟩ | ⟨_, _, _, _, rfl⟩
  · have well : Visit.problem? ⟨m, label, command⟩ = none := by simp [Visit.problem?, planned]
    cases Command.plan_returns command m.generator action generator planned with
    | start width height closed =>
        cases carried
        have starts := Visit.starts_of_planned (v := ⟨m, label, _⟩) planned
        exact Or.inr ⟨width, height, [], .start ran starts, Canvas.blank_eq_showing width height⟩
    | figure f isFigure opened =>
        cases carried
        obtain ⟨width, height, figures, underWay, shown⟩ := depicts.of_open opened
        have draws := Visit.draws_of_planned (v := ⟨m, label, command⟩) planned
        refine Or.inr ⟨width, height, figures ++ [f], underWay.draw draws well, ?_⟩
        rw [← Canvas.showing_add, ← shown]
        rfl
    | finish =>
        cases carried
        exact Or.inl rfl
    | _ =>
        cases carried
        exact depicts.pass rfl well
  · exact Or.inl rfl

theorem enter (depicts : Depicts ran m.canvas) (text : String) :
    Depicts ran (m.enter text).2.canvas := by
  unfold Machine.enter
  split
  · split
    · exact depicts
    · split
      · exact Or.inl rfl
      · exact depicts
  · exact depicts

theorem isKept : IsKept fun ran m => Depicts ran m.canvas where
  load _ _ := Or.inl rfl
  step depicts _ _ := depicts.step _
  stop depicts _ := depicts
  fail _ _ := Or.inl rfl
  quiet _ depicts := depicts
  enter text depicts := depicts.enter text

end Depicts

/-! ### Documents -/

/-- A run hands out a document exactly if its last statement does. -/
theorem run_drawing {budget : Nat} {m : Machine} {document : String} :
    (m.run budget).1 = .drawing document ↔
      ∃ v, (m.runVisits budget).getLast? = some v ∧ v.event? = some (.drawing document) := by
  induction budget generalizing m with
  | zero => simp [run, runVisits]
  | succ budget ih =>
      cases found : m.program.statement? m.pc with
      | none =>
          rw [run_past_end found, runVisits_past_end found]
          simp
      | some s =>
          rcases hstep : m.step s with ⟨event, next⟩
          have first : Visit.event? ⟨m, s⟩ = event := by rw [Visit.event?, hstep]
          cases event with
          | some event =>
              rw [run_event found hstep, runVisits_event found hstep]
              simp [first]
          | none =>
              rw [run_silent found hstep, runVisits_silent found hstep, ih, List.getLast?_cons]
              cases last : (next.runVisits budget).getLast? with
              | none => simp [first]
              | some v => simp

/-- Only a machine that carries out statements hands out a document. -/
theorem isReady_of_drawing {m : Machine} {budget : Nat} {document : String}
    (handedOut : (m.execute budget).1 = .drawing document) : m.IsReady := by
  by_contra notReady
  rcases execute_not_ready_event notReady budget with ⟨_, reported⟩ | ⟨_, stopped | refused | asked⟩
  · cases handedOut.symm.trans reported
  · cases handedOut.symm.trans stopped
  · cases handedOut.symm.trans refused
  · cases handedOut.symm.trans asked

/-- A statement hands out a document exactly if it finishes a drawing and does not fail, and the document is
    what the canvas shows. -/
theorem event_drawing {v : Visit} {document : String} :
    v.event? = some (.drawing document) ↔
      v.statement.command = .drawFinish ∧ v.problem? = none ∧ document = v.machine.canvas.document := by
  rcases v with ⟨m, label, command⟩
  rcases hstep : m.step ⟨label, command⟩ with ⟨event, next⟩
  have isEvent : Visit.event? ⟨m, label, command⟩ = event := by rw [Visit.event?, hstep]
  rw [isEvent]
  rcases step_cases hstep with ⟨action, generator, planned, carried⟩ | ⟨_, _, planned, reported, _⟩
  · have well : Visit.problem? ⟨m, label, command⟩ = none := by simp [Visit.problem?, planned]
    cases Command.plan_returns command m.generator action generator planned with
    | finish opened =>
        cases carried
        simp only [well, Option.some.injEq, Event.drawing.injEq, true_and]
        exact eq_comm
    | figure f isFigure =>
        cases carried
        have other : command ≠ .drawFinish := by
          rintro rfl
          cases isFigure
        simp [other]
    | _ =>
        cases carried
        simp
  · have failed : Visit.problem? ⟨m, label, command⟩ ≠ none := by simp [Visit.problem?, planned]
    simp [failed, reported]

/-- A statement that finishes a drawing and does not fail finds a drawing under way. -/
theorem isOpen_of_finish {v : Visit} (isFinish : v.statement.command = .drawFinish)
    (well : v.problem? = none) : v.machine.canvas.isOpen = true := by
  rcases v with ⟨m, label, command⟩
  cases isFinish
  unfold Visit.problem? at well
  split at well
  · rename_i action planned
    cases Command.plan_returns .drawFinish m.generator action _ (Prod.ext planned rfl) with
    | finish opened => exact opened
    | figure _ isFigure => cases isFigure
  · cases well

/-- A machine that hands out a document has just finished the drawing under way. -/
theorem underWay_of_drawing {ran : List Visit} {m : Machine} (depicts : Depicts ran m.canvas) {budget : Nat}
    {document : String} (handedOut : (m.execute budget).1 = .drawing document) :
    ∃ before finish width height figures, m.executeVisits budget = before ++ [finish] ∧
      finish.statement.command = .drawFinish ∧ UnderWay (ran ++ before) width height figures ∧
      document = (Canvas.showing width height figures).document := by
  have ready := isReady_of_drawing handedOut
  rw [ready.execute_eq_run, run_drawing] at handedOut
  obtain ⟨finish, last, event⟩ := handedOut
  obtain ⟨before, visits⟩ := List.getLast?_eq_some_iff.1 last
  obtain ⟨isFinish, well, rfl⟩ := event_drawing.1 event
  have shows : Depicts (ran ++ before) finish.machine.canvas :=
    Depicts.isKept.visited ran budget depicts ready visits
  obtain ⟨width, height, figures, underWay, shown⟩ := shows.of_open (isOpen_of_finish isFinish well)
  refine ⟨before, finish, width, height, figures, ?_, isFinish, underWay, by rw [shown]⟩
  rw [ready.executeVisits_eq, visits]

/-- A finished drawing is exactly what was drawn. Take any calls on a new machine. It then hands out a
    document exactly if the last statement that it carries out finishes a drawing and does not fail. The
    document has, each on a line of its own, the opening tag with the size that the last start of a drawing
    evaluated to, one element for each figure drawn since then, in order and from the values that its
    operands had at that moment, and the closing tag. The canvas has no lines unless a drawing has been
    started, and then the opening tag first; so it is with any canvas that operations lead to, and an
    operation that fails changes nothing. At last the opening tag and the elements are written out. -/
theorem drawing_is_what_was_drawn (generator : Generator) (calls : List Call) :
    let m := (new generator).after calls
    let ran := (new generator).visitsSinceLoad [] calls
    (∀ budget document, (m.execute budget).1 = .drawing document →
      ∃ drawn finish width height figures,
        ran ++ m.executeVisits budget = drawn ++ [finish] ∧
        finish.statement.command = .drawFinish ∧
        UnderWay drawn width height figures ∧
        document = "\n".intercalate
          (Canvas.rootTag width height :: figures.map Figure.element ++ ["</svg>"]) ++ "\n") ∧
    (∀ budget finish, (m.executeVisits budget).getLast? = some finish →
      finish.statement.command = .drawFinish → finish.problem? = none →
      ∃ document, (m.execute budget).1 = .drawing document) ∧
    m.canvas.IsProper ∧
    (∀ operations, (Canvas.empty.afterOperations operations).IsProper) ∧
    (∀ (c : Canvas) op problem, (c.perform op).1 = .error problem → (c.perform op).2 = c) ∧
    (∀ width height, Canvas.rootTag width height =
      "<svg xmlns=\"http://www.w3.org/2000/svg\" width=\"" ++ Number.text width ++
        "\" height=\"" ++ Number.text height ++ "\">") ∧
    (∀ x y radius color filled, (Figure.circle x y radius color filled).element =
      "<circle cx=\"" ++ Number.text x ++ "\" cy=\"" ++ Number.text y ++
        "\" r=\"" ++ Number.text radius ++ "\" stroke=\"" ++ Figure.paint color ++
        "\" fill=\"" ++ (if filled then Figure.paint color else "none") ++ "\" />") ∧
    (∀ x1 y1 x2 y2 color, (Figure.line x1 y1 x2 y2 color).element =
      "<line x1=\"" ++ Number.text x1 ++ "\" y1=\"" ++ Number.text y1 ++
        "\" x2=\"" ++ Number.text x2 ++ "\" y2=\"" ++ Number.text y2 ++
        "\" stroke=\"" ++ Figure.paint color ++ "\" />") ∧
    ∀ x1 y1 x2 y2 color filled, (Figure.rectangle x1 y1 x2 y2 color filled).element =
      "<rect x=\"" ++ Number.text (Figure.least x1 x2) ++
        "\" y=\"" ++ Number.text (Figure.least y1 y2) ++
        "\" width=\"" ++ Number.text (x2 - x1).abs ++ "\" height=\"" ++ Number.text (y2 - y1).abs ++
        "\" stroke=\"" ++ Figure.paint color ++
        "\" fill=\"" ++ (if filled then Figure.paint color else "none") ++ "\" />" := by
  intro m ran
  have depicts : Depicts ran m.canvas := Depicts.isKept.calls [] calls (Or.inl rfl)
  refine ⟨?_, ?_, depicts.isProper, Canvas.IsProper.empty.afterOperations,
    fun c op problem => Canvas.perform_failed, fun _ _ => Canvas.rootTag_markup _ _,
    fun _ _ _ _ _ => Figure.circle_markup _ _ _ _ _, fun _ _ _ _ _ => Figure.line_markup _ _ _ _ _,
    fun _ _ _ _ _ _ => Figure.rectangle_markup _ _ _ _ _ _⟩
  · intro budget document handedOut
    obtain ⟨before, finish, width, height, figures, visits, isFinish, underWay, rfl⟩ :=
      underWay_of_drawing depicts handedOut
    refine ⟨ran ++ before, finish, width, height, figures, ?_, isFinish, underWay,
      Canvas.document_showing width height figures⟩
    rw [visits, List.append_assoc]
  · intro budget finish last isFinish well
    have ready : m.IsReady := by
      by_contra notReady
      rw [executeVisits_of_not_ready notReady] at last
      cases last
    rw [ready.executeVisits_eq] at last
    rw [ready.execute_eq_run]
    exact ⟨_, run_drawing.2 ⟨finish, last, event_drawing.2 ⟨isFinish, well, rfl⟩⟩⟩

/-- Of two drawings each has its own size and figures. -/
example :
    (new (.constant 0)).replies
      [.load (Listing.load
          "10 DRAW START 9, 9\n20 PLOT 1, 2, 3, RED\n30 DRAW FINISH\n40 DRAW START 8, 7\n50 DRAW FINISH\n"),
        .execute 9, .execute 9] =
      [.done,
        .event (.drawing ("<svg xmlns=\"http://www.w3.org/2000/svg\" width=\"9\" height=\"9\">\n" ++
          "<circle cx=\"1\" cy=\"2\" r=\"3\" stroke=\"red\" fill=\"none\" />\n</svg>\n")),
        .event (.drawing "<svg xmlns=\"http://www.w3.org/2000/svg\" width=\"8\" height=\"7\">\n</svg>\n")] := by
  decide +kernel

end Machine

end Plotline

/-
Module: Plotline.Proofs.ShapeCheck
Layer: Proofs
Purpose: The check of a line's shape. It never looks up a token that is not there (`Shape.check_reaches`), so
  a flaw is always reported as a malformed statement under the label of its line. The other half is how a line
  passes: `Shape.check_eq_ok` leaves the check that goes with its command word, and the conditions and lookups
  of that are met one after the other.
Main exports: Shape.diagnose_eq_ok, Shape.check_reaches, Shape.diagnose_error, Shape.check_eq_ok,
  Shape.checkBranch_of, Shape.free_of_checkBranch, Shape.checkFigure_eq_ok
-/
import Plotline.Proofs.Outcome
import Plotline.Token.Shape

namespace Plotline

namespace Shape

/-- A line is not reported exactly when its tokens pass the check. -/
theorem diagnose_eq_ok {label : Label} {line : String} {tokens : List Token} :
    diagnose label line tokens = .ok () ↔ check tokens = .ok () :=
  mapError_eq_ok

/-! ### No check looks beyond the end of a line -/

/-- The check looks up no token beyond the end of the line. -/
def Reaches {α : Type} (x : Check α) : Prop :=
  x ≠ .error .outOfReach

theorem require_eq_ok {flaw : Flaw} {holds : Bool} : require flaw holds = .ok () ↔ holds = true := by
  cases holds <;> simp [require]

theorem Reaches.ok {α : Type} (a : α) : Reaches (.ok a) := by
  simp [Reaches]

theorem Reaches.require {flaw : Flaw} (h : flaw ≠ .outOfReach) (holds : Bool) :
    Reaches (Shape.require flaw holds) := by
  cases holds with
  | true => exact .ok ()
  | false => simpa [Reaches, Shape.require] using h

theorem Reaches.bind {α β : Type} {x : Check α} {f : α → Check β} (first : Reaches x)
    (second : ∀ a, x = .ok a → Reaches (f a)) : Reaches (x >>= f) := by
  intro h
  rcases bind_eq_error.1 h with failed | ⟨a, passed, failed⟩
  · exact first failed
  · exact second a passed failed

/-- What follows a condition may rely on it. -/
theorem Reaches.require_bind {β : Type} {flaw : Flaw} {holds : Bool} {f : Unit → Check β}
    (h : flaw ≠ .outOfReach) (next : holds = true → Reaches (f ())) :
    Reaches (Shape.require flaw holds >>= f) :=
  .bind (.require h holds) fun _ passed => next (require_eq_ok.1 passed)

theorem Reaches.reach {tokens : List Token} {place : Nat} (h : place < tokens.length) :
    Reaches (Shape.reach tokens place) := by
  rw [Shape.reach, List.getElem?_eq_getElem h]
  exact .ok _

theorem Reaches.reachBack {tokens : List Token} {place : Nat} (h : place < tokens.length) :
    Reaches (Shape.reachBack tokens place) :=
  .reach (by rwa [List.length_reverse])

/-- A token that is there, and a condition on it. -/
theorem Reaches.reach_require {tokens : List Token} {place : Nat} (h : place < tokens.length)
    (holds : Token → Bool) :
    Reaches (Shape.reach tokens place >>= fun t => Shape.require .misfit (holds t)) :=
  .bind (.reach h) fun _ _ => .require (by simp) _

theorem checkAssign_reaches (tokens : List Token) (last : Token) : Reaches (checkAssign tokens last) := by
  unfold checkAssign
  split
  · simp [Reaches]
  · exact .require_bind (by simp) fun _ => .require (by simp) _

theorem checkDim_reaches (tokens : List Token) : Reaches (checkDim tokens) := by
  apply Reaches.require_bind (by simp)
  intro four
  have length := beq_iff_eq.1 four
  apply Reaches.bind (.reach (by omega))
  intro first _
  apply Reaches.require_bind (by simp)
  intro _
  exact .reach_require (by omega) _

theorem checkPrint_reaches (tokens : List Token) : Reaches (checkPrint tokens) :=
  .require_bind (by simp) fun _ => .require_bind (by simp) fun _ => .require (by simp) _

/-- A line of three tokens has a second one. -/
theorem second_reaches (tokens : List Token) (holds : Token → Bool) :
    Reaches (Shape.require .misfit (tokens.length == 3) >>= fun _ =>
      Shape.reach tokens 1 >>= fun t => Shape.require .misfit (holds t)) := by
  apply Reaches.require_bind (by simp)
  intro three
  have length := beq_iff_eq.1 three
  exact .reach_require (by omega) _

theorem checkBranch_reaches (tokens : List Token) : Reaches (checkBranch tokens) := by
  unfold checkBranch
  split
  · simp [Reaches]
  · apply Reaches.require_bind (by simp)
    intro _
    apply Reaches.require_bind (by simp)
    intro _
    apply Reaches.require_bind (by simp)
    intro ends
    have length := beq_iff_eq.1 ends
    exact .reach_require (by omega) _

theorem checkDraw_reaches {tokens : List Token} (h : 2 ≤ tokens.length) : Reaches (checkDraw tokens) := by
  apply Reaches.bind (.reach h)
  intro phase _
  split
  · exact .require (by simp) _
  · exact .require_bind (by simp) fun _ => .require (by simp) _

theorem checkFigure_reaches (commas : Nat) (tokens : List Token) (last : Token) :
    Reaches (checkFigure commas tokens last) := by
  apply Reaches.require_bind (by simp)
  intro _
  dsimp only
  split
  · rename_i filled
    have length := of_decide_eq_true (Bool.and_eq_true_iff.1 filled).2
    exact .bind (.reachBack (by omega)) fun _ _ => .require (by simp) _
  · exact .bind (.ok last) fun _ _ => .require (by simp) _

theorem checkWord_reaches (word : Word) {tokens : List Token} (h : 2 ≤ tokens.length) (last : Token) :
    Reaches (checkWord word tokens last) := by
  cases word with
  | assign => exact checkAssign_reaches tokens last
  | dim => exact checkDim_reaches tokens
  | print => exact checkPrint_reaches tokens
  | goto => exact second_reaches tokens _
  | branch => exact checkBranch_reaches tokens
  | halt => exact .require (by simp) _
  | input => exact second_reaches tokens _
  | draw => exact checkDraw_reaches h
  | plot | line | rectangle => exact checkFigure_reaches _ tokens last

/-- A line that ends where it should is checked without looking beyond its end. -/
theorem check_reaches (body : List Token) (word : Word) :
    check (body ++ [.endOfLine]) ≠ .error (word, .outOfReach) := by
  intro h
  unfold check at h
  split at h
  · rename_i starts
    have long : 2 ≤ (body ++ [Token.endOfLine]).length := by
      cases body with
      | nil => cases starts
      | cons => simp
    split at h
    · rename_i flaw beyond
      cases h
      exact Reaches.reachBack long beyond
    · rcases mapError_eq_error.1 h with ⟨flaw, failed, same⟩
      cases same
      exact checkWord_reaches word long _ failed
  · cases h

/-- So a flaw is always reported as a malformed statement, under the label of the line. -/
theorem diagnose_error {label : Label} {line : String} {body : List Token} {problem : Diagnostic}
    (h : diagnose label line (body ++ [.endOfLine]) = .error problem) :
    problem.code = .malformedStatement ∧ problem.label = some label := by
  rcases mapError_eq_error.1 h with ⟨⟨word, flaw⟩, failed, rfl⟩
  cases flaw with
  | outOfReach => exact absurd failed (check_reaches body word)
  | _ => exact ⟨rfl, rfl⟩

/-! ### Passing the check of shapes -/

theorem require_of {flaw : Flaw} {holds : Bool} (h : holds = true) : require flaw holds = .ok () :=
  require_eq_ok.2 h

theorem require_bind_eq_ok {α : Type} {flaw : Flaw} {holds : Bool} {f : Unit → Check α} {a : α} :
    (require flaw holds >>= f) = .ok a ↔ holds = true ∧ f () = .ok a := by
  rw [bind_eq_ok]
  constructor
  · rintro ⟨_, passed, next⟩
    exact ⟨require_eq_ok.1 passed, next⟩
  · rintro ⟨passed, next⟩
    exact ⟨(), require_of passed, next⟩

theorem require_then {α : Type} {flaw : Flaw} {holds : Bool} {f : Unit → Check α} {a : α}
    (h : holds = true) (next : f () = .ok a) : (require flaw holds >>= f) = .ok a :=
  require_bind_eq_ok.2 ⟨h, next⟩

theorem reach_then {α : Type} {tokens : List Token} {place : Nat} {t : Token} {f : Token → Check α}
    {a : α} (found : tokens[place]? = some t) (next : f t = .ok a) : (reach tokens place >>= f) = .ok a :=
  bind_eq_ok.2 ⟨t, by rw [reach, found], next⟩

/-- The check that goes with a command word is given the token before the end of the line. -/
theorem check_eq {word : Word} {rest front : List Token} {last : Token}
    (ends : .word word :: rest = front ++ [last]) :
    check (.word word :: rest ++ [.endOfLine]) =
      (checkWord word (.word word :: rest ++ [.endOfLine]) last).mapError (word, ·) := by
  have found : reachBack (.word word :: rest ++ [.endOfLine]) 1 = .ok last := by
    rw [reachBack, reach, ends]
    simp
  rw [List.cons_append] at found ⊢
  unfold check
  dsimp only
  rw [found]

/-- A line passes exactly if it passes the check that goes with its command word. -/
theorem check_eq_ok {word : Word} {rest front : List Token} {last : Token}
    (ends : .word word :: rest = front ++ [last]) :
    check (.word word :: rest ++ [.endOfLine]) = .ok () ↔
      checkWord word (.word word :: rest ++ [.endOfLine]) last = .ok () := by
  rw [check_eq ends]
  exact mapError_eq_ok

theorem checkWord_of_check {word : Word} {rest : List Token} (h : check (.word word :: rest) = .ok ()) :
    ∃ last, checkWord word (.word word :: rest) last = .ok () := by
  unfold check at h
  dsimp only at h
  split at h
  · cases h
  · rename_i last _
    cases passed : checkWord word (.word word :: rest) last with
    | ok => exact ⟨last, passed⟩
    | error flaw =>
        rw [passed] at h
        cases h

/-- A conditional jump passes if there is a comparison and no THEN before its last three tokens. -/
theorem checkBranch_of (front : List Token) (text : String)
    (free : ∀ t ∈ front, t.isNamed "THEN" = false) (long : 4 ≤ front.length)
    (compares : front.any Token.isComparison = true) :
    checkBranch (front ++ [.name "THEN", .number text, .endOfLine]) = .ok () := by
  have found : (front ++ [Token.name "THEN", .number text, .endOfLine]).findIdx? (Token.isNamed "THEN") =
      some front.length := by
    rw [List.findIdx?_append, List.findIdx?_eq_none_iff.2 (by simpa using free)]
    simp [List.findIdx?_cons, Token.isNamed]
  simp only [checkBranch, found]
  apply require_then (by simpa using long)
  apply require_then (by simpa using compares)
  apply require_then (by simp)
  apply reach_then (t := .number text) (by simp)
  rfl

/-- The other way round, no THEN stands before the last three tokens of one that passes. -/
theorem free_of_checkBranch (front : List Token) (text : String)
    (h : checkBranch (front ++ [.name "THEN", .number text, .endOfLine]) = .ok ()) :
    ∀ t ∈ front, t.isNamed "THEN" = false := by
  unfold checkBranch at h
  split at h
  · cases h
  · rename_i place found
    rcases bind_eq_ok.1 h with ⟨_, _, continued⟩
    rcases bind_eq_ok.1 continued with ⟨_, _, ending⟩
    rcases bind_eq_ok.1 ending with ⟨_, length, _⟩
    have last : place = front.length := by
      have same := require_eq_ok.1 length
      simp at same
      omega
    rcases List.findIdx?_eq_some_iff_getElem.1 found with ⟨_, _, before⟩
    intro t mem
    rcases List.getElem_of_mem mem with ⟨i, inside, rfl⟩
    have here := before i (last ▸ inside)
    rw [List.getElem_append_left inside] at here
    simpa using here

/-- A figure passes if it has enough commas and a name for its colour: the last token, or the one before it
    if the last one is FILL. -/
theorem checkFigure_eq_ok {commas : Nat} {front : List Token} {before last : Token} (nonempty : front ≠ []) :
    checkFigure commas (front ++ [before, last, .endOfLine]) last = .ok () ↔
      commas ≤ (front ++ [before, last, .endOfLine]).count .comma ∧
        (if last.isNamed "FILL" then before else last).isName = true := by
  have long : 3 < (front ++ [before, last, .endOfLine]).length := by
    have some := List.length_pos_iff.2 nonempty
    simp
    omega
  have place : reachBack (front ++ [before, last, .endOfLine]) 2 = .ok before := by
    simp [reachBack, reach]
  rw [checkFigure, require_bind_eq_ok, decide_eq_true_eq, decide_eq_true long, place]
  apply and_congr_right
  intro _
  cases last.isNamed "FILL" with
  | true => exact require_eq_ok
  | false => exact require_eq_ok

end Shape

end Plotline

/-
Module: Plotline.Proofs.Region
Layer: Proofs
Purpose: The drawing region along a program. `Command.Moves` is the rule of the language: a drawing is
  started outside one, figures and the finish stand inside one, and nothing else has to do with regions. A
  command is read only where the rule allows it (`Command.parse_moves`), so the statements of a listing,
  whatever became of its other lines, walk from the closed region to the region of the listing
  (`Listing.load_path`), and at each address the rule holds in the region found by scanning the statements
  before it (`Region.Path.moves_at`).
Main exports: Command.Moves, Region.scan, Region.before, Region.Path, Command.parse_moves,
  Listing.load_path, Region.Path.moves_at
-/
import Plotline.Listing
import Plotline.Proofs.Outcome

namespace Plotline

namespace Command

/-- A command that adds to a drawing. -/
def isFigure : Command → Bool
  | .line .. | .plot .. | .rectangle .. => true
  | _ => false

/-- A command that has to do with drawing. -/
def isDrawing : Command → Bool
  | .drawStart .. | .drawFinish => true
  | c => c.isFigure

/-- A command is allowed in a region and leads to a region. -/
inductive Moves : Region → Command → Region → Prop where
  | start (width height : Expression) : Moves .closed (.drawStart width height) .opened
  | finish : Moves .opened .drawFinish .closed
  | figure {c : Command} (h : c.isFigure = true) : Moves .opened c .opened
  | other {c : Command} (r : Region) (h : c.isDrawing = false) : Moves r c r

theorem Moves.regionAfter_eq {r r' : Region} {c : Command} (h : Moves r c r') :
    c.regionAfter r = r' := by
  cases h with
  | start => rfl
  | finish => rfl
  | figure h => cases c <;> simp [isFigure] at h <;> rfl
  | other _ h => cases c <;> simp [isDrawing, isFigure] at h <;> rfl

theorem Moves.opened_of_figure {r r' : Region} {c : Command} (h : Moves r c r')
    (isFigure : c.isFigure = true) : r = .opened := by
  cases h with
  | start => cases isFigure
  | finish => rfl
  | figure => rfl
  | other _ notDrawing => cases c <;> simp [Command.isFigure, isDrawing] at isFigure notDrawing

theorem requireOpened_ok {r : Region} (h : requireOpened r = .ok ()) : r = .opened := by
  cases r with
  | opened => rfl
  | closed => cases h

theorem requireClosed_ok {r : Region} (h : requireClosed r = .ok ()) : r = .closed := by
  cases r with
  | closed => rfl
  | opened => cases h

/-! ### Reading keeps the rule -/

private theorem parseDraw_moves {r : Region} {tokens rest : List Token} {c : Command}
    (h : parseDraw r tokens = .ok (c, rest)) : Moves r c (c.regionAfter r) := by
  unfold parseDraw at h
  split at h
  · obtain ⟨_, closed, h⟩ := bind_eq_ok.1 h
    obtain ⟨_, _, h⟩ := bind_eq_ok.1 h
    obtain ⟨_, _, h⟩ := bind_eq_ok.1 h
    cases h
    cases requireClosed_ok closed
    exact .start _ _
  · obtain ⟨_, opened, h⟩ := bind_eq_ok.1 h
    cases h
    cases requireOpened_ok opened
    exact .finish
  · cases h

/-- A figure that is read after a check that the region is open keeps the rule. -/
private theorem moves_of_figure {r : Region} {reading : Read (Command × List Token)} {c : Command}
    {rest : List Token} (figures : Yields (fun (c, _) => c.isFigure = true) reading)
    (h : (requireOpened r >>= fun _ => reading) = .ok (c, rest)) : Moves r c (c.regionAfter r) := by
  obtain ⟨_, opened, read⟩ := bind_eq_ok.1 h
  cases requireOpened_ok opened
  have figure : Moves .opened c .opened := .figure (figures (c, rest) read)
  rw [figure.regionAfter_eq]
  exact figure

/-- What has nothing to do with drawing keeps the rule anywhere. -/
private theorem moves_of_other {r : Region} {reading : Read (Command × List Token)} {c : Command}
    {rest : List Token} (others : Yields (fun (c, _) => c.isDrawing = false) reading)
    (h : reading = .ok (c, rest)) : Moves r c (c.regionAfter r) := by
  have notDrawing : c.isDrawing = false := others (c, rest) h
  rw [(Moves.other r notDrawing).regionAfter_eq]
  exact .other r notDrawing

private theorem parsePrint_yields (tokens : List Token) :
    Yields (fun (c, _) => c.isDrawing = false) (parsePrint tokens) := by
  unfold parsePrint
  split
  · exact .ok rfl
  · exact .bind fun ⟨_, _⟩ => .ok rfl

/-- A command is read only where the rule of regions allows it. -/
theorem parse_moves {r : Region} {tokens rest : List Token} {c : Command}
    (h : parse r tokens = .ok (c, rest)) : Moves r c (c.regionAfter r) := by
  unfold parse at h
  split at h
  · rename_i word operands
    cases word with
    | draw => exact parseDraw_moves h
    | plot =>
        refine moves_of_figure ?_ h
        exact .bind fun ⟨_, _⟩ => .bind fun ⟨_, _⟩ => .bind fun ⟨_, _⟩ => .bind fun ⟨⟨_, _⟩, _⟩ => .ok rfl
    | line | rectangle =>
        refine moves_of_figure ?_ h
        exact .bind fun ⟨_, _⟩ => .bind fun ⟨_, _⟩ => .bind fun ⟨_, _⟩ => .bind fun ⟨_, _⟩ =>
          .bind fun ⟨⟨_, _⟩, _⟩ => .ok rfl
    | halt => exact moves_of_other (.ok rfl) h
    | goto | input => exact moves_of_other (.bind fun ⟨_, _⟩ => .ok rfl) h
    | dim => exact moves_of_other (.bind fun ⟨_, _⟩ => .bind fun ⟨_, _⟩ => .ok rfl) h
    | print => exact moves_of_other (parsePrint_yields operands) h
    | assign =>
        refine moves_of_other ?_ h
        exact .bind fun ⟨_, _⟩ => .bind fun ⟨_, _⟩ => .bind fun ⟨_, _⟩ => .ok rfl
    | branch =>
        refine moves_of_other ?_ h
        exact .bind fun ⟨_, _⟩ => .bind fun ⟨_, _⟩ => .bind fun ⟨_, _⟩ => .bind fun ⟨_, _⟩ =>
          .bind fun ⟨_, _⟩ => .ok rfl
  · cases h

end Command

/-! ### Walks through statements -/

namespace Region

/-- The region after some statements, when it was `r` before them: a start opens it, a finish closes it. -/
def scan (r : Region) (statements : List Statement) : Region :=
  statements.foldl (fun r s => s.command.regionAfter r) r

/-- The region at an address of a program, found by scanning the statements before it. -/
def before (statements : List Statement) (address : Nat) : Region :=
  scan .closed (statements.take address)

/-- Statements that are allowed one after the other, from a region to a region. -/
inductive Path : Region → List Statement → Region → Prop where
  | nil (r : Region) : Path r [] r
  | cons {r r' last : Region} {s : Statement} {rest : List Statement}
      (head : s.command.Moves r r') (tail : Path r' rest last) : Path r (s :: rest) last

theorem Path.append {r r' last : Region} {first second : List Statement}
    (h : Path r first r') (more : Path r' second last) : Path r (first ++ second) last := by
  induction h with
  | nil => exact more
  | cons head _ ih => exact .cons head (ih more)

/-- At every address of a walk the rule of regions holds between the scans up to it and past it. -/
theorem Path.moves_at {r last : Region} {statements : List Statement} (h : Path r statements last)
    {address : Nat} {s : Statement} (found : statements[address]? = some s) :
    s.command.Moves (scan r (statements.take address)) (scan r (statements.take (address + 1))) := by
  induction h generalizing address with
  | nil => simp at found
  | cons head _ ih =>
      cases address with
      | zero =>
          cases found
          simpa [scan, head.regionAfter_eq] using head
      | succ address =>
          have moves := ih found
          simpa only [scan, List.take_succ_cons, List.foldl_cons, head.regionAfter_eq] using moves

end Region

/-- The statements read off a token list are allowed one after the other. -/
theorem Statement.parseItems_path {fuel : Nat} {label : Option Label} {r last : Region}
    {tokens : List Token} {statements : List Statement}
    (h : parseItems fuel label r tokens = .ok (statements, last)) :
    Region.Path r statements last := by
  fun_induction parseItems fuel label r tokens generalizing statements with
  | case1 => cases h; exact .nil _
  | case2 => cases h; exact .nil _
  | case3 => cases h; exact .nil _
  | case4 fuel label r rest next ih => exact ih h
  | case5 => cases h
  | case6 => cases h
  | case7 fuel r tokens label _ _ _ command rest read ih =>
      obtain ⟨⟨more, region⟩, others, h⟩ := bind_eq_ok.1 h
      cases h
      exact .cons (Command.parse_moves read) (ih others)

/-- An accepted line has been read as statements in the region it was met in. -/
theorem Reading.ofLine_accepted {r last : Region} {text : String} {line : Line}
    {statements : List Statement} (h : ofLine r text = .accepted line statements last) :
    Statement.parseAll r line.tokens = .ok (statements, last) := by
  unfold ofLine at h
  split at h
  · cases h
  · split at h
    · cases h
    · split at h
      · cases h
      · rename_i parsed
        cases h
        exact parsed

namespace Listing

/-- The statements of the lines read so far walk from the closed region to the region after them. -/
def IsWalk (l : Listing) : Prop :=
  Region.Path .closed l.statements l.region

/-- A line that is read takes the walk further, and any other line leaves it alone. -/
theorem IsWalk.takeLine {l : Listing} (walk : l.IsWalk) (text : String) : (l.takeLine text).IsWalk := by
  unfold Listing.takeLine loadLine
  cases reading : Reading.ofLine l.region text with
  | skipped => exact walk
  | illegible problem => exact walk
  | rejected line problem => exact walk
  | accepted line statements last =>
      have read := Reading.ofLine_accepted reading
      exact Region.Path.append walk (Statement.parseItems_path read)

theorem IsWalk.takeLines {l : Listing} (walk : l.IsWalk) (lines : List String) :
    (lines.foldl Listing.takeLine l).IsWalk := by
  induction lines generalizing l with
  | nil => exact walk
  | cons text rest ih => exact ih (walk.takeLine text)

/-- The statements of a source text are allowed one after the other, and end in the region of its listing. -/
theorem load_path (source : String) :
    Region.Path .closed (load source).statements (load source).region := by
  have start : ({} : Listing).IsWalk := .nil .closed
  exact start.takeLines (Text.lines source)

end Listing

end Plotline

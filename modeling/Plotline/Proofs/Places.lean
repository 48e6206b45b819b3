/-
Module: Plotline.Proofs.Places
Layer: Proofs
Purpose: Reading a line by places. `Line.survey` finds everything by a number: the byte at which the label
  ends, the positions of the signs, the numbers of the tokens that the check of the shape asks for, some of
  them counted back from the end. A place need not exist, and a lookup that misses ends the reading with no
  outcome at all. None misses: the survey of a line is the outcome of `Line.tokenize` (`Line.survey_eq`),
  since each lookup comes after the conditions that make its place exist.
Main exports: Text.splitAtByte?, Token.expandSigns?, Shape.Survey, Shape.surveyWord, Line.survey,
  Shape.survey_eq, Line.survey_eq, Line.no_place_missing
-/
import Plotline.Proofs.LineReports

namespace Plotline

/-! ### Bytes -/

namespace Text

/-- The number of bytes of a text. -/
def byteCount : List Char → Nat
  | [] => 0
  | c :: rest => c.utf8Size + byteCount rest

/-- The byte at which the first character of a class starts. -/
def byteOf? (p : Char → Bool) : List Char → Option Nat
  | [] => none
  | c :: rest => if p c then some 0 else (byteOf? p rest).map (c.utf8Size + ·)

/-- A text cut in two at a byte. The cut misses beyond the end of the text and in the middle of a
    character. -/
def splitAtByte? : Nat → List Char → Option (List Char × List Char)
  | 0, cs => some ([], cs)
  | _ + 1, [] => none
  | place + 1, c :: rest =>
      if c.utf8Size ≤ place + 1 then
        (splitAtByte? (place + 1 - c.utf8Size) rest).map fun (front, back) => (c :: front, back)
      else none

theorem splitAtByte?_cons (c : Char) (place : Nat) (rest : List Char) :
    splitAtByte? (c.utf8Size + place) (c :: rest) =
      (splitAtByte? place rest).map fun (front, back) => (c :: front, back) := by
  obtain ⟨size, isSize⟩ := Nat.exists_eq_succ_of_ne_zero c.utf8Size_pos.ne'
  have shift : c.utf8Size + place = size + place + 1 := by omega
  have left : size + place + 1 - c.utf8Size = place := by omega
  rw [shift, splitAtByte?, if_pos (by omega), left]

/-- The byte at which the first separator starts; the byte after the last one if there is none. -/
def fieldEnd (cs : List Char) : Nat :=
  (byteOf? isSpace cs).getD (byteCount cs)

theorem fieldEnd_cons {c : Char} (visible : isSpace c = false) (rest : List Char) :
    fieldEnd (c :: rest) = c.utf8Size + fieldEnd rest := by
  rw [fieldEnd, byteOf?, visible, if_neg Bool.false_ne_true, fieldEnd]
  cases byteOf? isSpace rest with
  | none => rfl
  | some place => rfl

end Text

/-- The cut at the end of the first field does not miss. -/
theorem Line.split_field (line : List Char) :
    Text.splitAtByte? (Text.fieldEnd line) line =
      some (line.takeWhile isFieldChar, line.dropWhile isFieldChar) := by
  induction line with
  | nil => rfl
  | cons c rest ih =>
      cases space : Text.isSpace c with
      | true =>
          have atOnce : Text.fieldEnd (c :: rest) = 0 := by simp [Text.fieldEnd, Text.byteOf?, space]
          rw [atOnce, Text.splitAtByte?]
          simp [isFieldChar, space]
      | false =>
          rw [Text.fieldEnd_cons space, Text.splitAtByte?_cons, ih]
          simp [isFieldChar, space]

/-! ### Positions of signs -/

namespace Token

/-- The tokens from a place on. -/
def from? (place : Nat) (tokens : List Token) : Option (List Token) :=
  if place ≤ tokens.length then some (tokens.drop place) else none

/-- The tokens before a place. -/
def upTo? (place : Nat) (tokens : List Token) : Option (List Token) :=
  if place ≤ tokens.length then some (tokens.take place) else none

/-- The token at a place that is counted back from the length. -/
def back? (count : Nat) (tokens : List Token) : Option Token :=
  if count ≤ tokens.length then tokens[tokens.length - count]? else none

/-- Puts the six tokens in place of the one at a position. -/
def spliceSign? (position : Nat) (tokens : List Token) : Option (List Token) :=
  if position + 1 ≤ tokens.length then some (spliceSign position tokens) else none

/-- Replaces every sign, the last one first, each at the position it was found at. -/
def expandSigns? (tokens : List Token) : Option (List Token) :=
  (signPositions tokens).foldrM spliceSign? tokens

theorem lt_of_mem_signPositions {tokens : List Token} {position : Nat}
    (h : position ∈ signPositions tokens) : position < tokens.length := by
  obtain ⟨⟨⟨before, token⟩, place⟩, found, chosen⟩ := List.mem_filterMap.1 h
  have same : place = position := by
    dsimp only at chosen
    split at chosen
    · exact Option.some.inj chosen
    · cases chosen
  cases tokens with
  | nil => cases found
  | cons first rest =>
      have bound : place < ((first :: rest).zip rest).length + 1 := List.snd_lt_of_mem_zipIdx found
      rw [List.length_zip, List.length_cons] at bound
      rw [List.length_cons]
      omega

/-- The list never gets shorter, so that the positions that are left stay inside it. -/
theorem splice_all {tokens : List Token} {positions : List Nat}
    (inside : ∀ position ∈ positions, position < tokens.length) :
    positions.foldrM spliceSign? tokens = some (positions.foldr spliceSign tokens) ∧
      tokens.length ≤ (positions.foldr spliceSign tokens).length := by
  induction positions with
  | nil => exact ⟨rfl, le_rfl⟩
  | cons position rest ih =>
      obtain ⟨here, others⟩ := List.forall_mem_cons.1 inside
      obtain ⟨spliced, longer⟩ := ih others
      constructor
      · rw [List.foldrM_cons, spliced, List.foldr_cons]
        exact if_pos (by omega)
      · have length : (spliceSign position (rest.foldr spliceSign tokens)).length =
            (rest.foldr spliceSign tokens).length + 5 := by
          simp [spliceSign, signTokens]
          omega
        rw [List.foldr_cons, length]
        omega

theorem expandSigns?_eq (tokens : List Token) : expandSigns? tokens = some (expandSigns tokens) :=
  (splice_all fun _ => lt_of_mem_signPositions).1

end Token

/-! ### The shape of a line -/

namespace Shape

open Token (upTo? back?)

/-- A check that looks places up: it has no outcome if one of them does not exist. -/
abbrev Survey := ExceptT Flaw Option

/-- Goes on only with what was found. -/
def look {α : Type} (found : Option α) : Survey α :=
  ExceptT.lift found

/-- Goes on only if a condition holds. -/
def demand (flaw : Flaw) (holds : Bool) : Survey Unit :=
  if holds then pure () else throw flaw

/-- A check that looks no place up. -/
def settled {α : Type} (x : Check α) : Survey α :=
  ExceptT.mk (some x)

/-- Three tokens, the second of a kind. -/
def surveySecond (kind : Token → Bool) (tokens : List Token) : Survey Unit := do
  demand .misfit (tokens.length == 3)
  demand .misfit (kind (← look tokens[1]?))

/-- A name and a number. -/
def surveyDim (tokens : List Token) : Survey Unit := do
  demand .misfit (tokens.length == 4)
  demand .misfit (← look tokens[1]?).isName
  demand .misfit (← look tokens[2]?).isNumber

/-- The tokens before the first THEN are looked through before it is known that there are enough of them. -/
def surveyBranch (tokens : List Token) : Survey Unit :=
  match tokens.findIdx? (Token.isNamed "THEN") with
  | none => throw .missingThen
  | some place => do
      let front ← look (upTo? place tokens)
      demand .misfit (4 ≤ place)
      demand .misfit (front.any Token.isComparison)
      demand .misfit (tokens.length == place + 3)
      demand .misfit (← look tokens[place + 1]?).isNumber

/-- The token after the word is looked up before the length is asked for. -/
def surveyDraw (tokens : List Token) : Survey Unit := do
  if (← look tokens[1]?).isNamed "FINISH" then demand .misfit (tokens.length == 3)
  else do
    demand .misfit ((← look tokens[1]?).isNamed "START")
    demand .misfit (5 ≤ tokens.length)

/-- The colour is the last token, or the one before it. -/
def surveyFigure (commas : Nat) (tokens : List Token) (last : Token) : Survey Unit := do
  demand .missingCoordinates (commas ≤ tokens.count .comma)
  let color ← if last.isNamed "FILL" && 3 < tokens.length then look (back? 3 tokens) else pure last
  demand .missingColor color.isName

/-- The check that goes with a command word, by places. -/
def surveyWord (word : Word) (tokens : List Token) (last : Token) : Survey Unit :=
  match word with
  | .dim => surveyDim tokens
  | .goto => surveySecond Token.isNumber tokens
  | .input => surveySecond Token.isName tokens
  | .branch => surveyBranch tokens
  | .draw => surveyDraw tokens
  | .plot => surveyFigure 3 tokens last
  | .line | .rectangle => surveyFigure 4 tokens last
  | .assign | .print | .halt => settled (checkWord word tokens last)

/-- Checks the tokens after a line's label by places. For every command word the token before the end is
    looked up first. -/
def survey (tokens : List Token) : Option (Except (Word × Flaw) Unit) :=
  match tokens with
  | .word word :: _ => do
      let last ← back? 2 tokens
      let outcome ← (surveyWord word tokens last).run
      some (outcome.mapError (word, ·))
  | _ => some (.ok ())

/-! ### No lookup of the check misses -/

variable {α β : Type} {tokens : List Token}

theorem settled_bind (x : Check α) (f : α → Check β) :
    settled (x >>= f) = settled x >>= fun a => settled (f a) := by
  cases x <;> rfl

theorem demand_eq (flaw : Flaw) (holds : Bool) : demand flaw holds = settled (require flaw holds) := by
  cases holds <;> rfl

/-- What follows a condition may rely on it. -/
theorem demand_bind {flaw : Flaw} {holds : Bool} {f : Unit → Survey β} {g : Unit → Check β}
    (next : holds = true → f () = settled (g ())) :
    (demand flaw holds >>= f) = settled (require flaw holds >>= g) := by
  cases holds with
  | false => rfl
  | true => exact next rfl

theorem look_eq {place : Nat} (inside : place < tokens.length) :
    look tokens[place]? = settled (reach tokens place) := by
  rw [reach, List.getElem?_eq_getElem inside]
  rfl

/-- Counting back from the length and counting from the front of the reverse find the same token. -/
theorem exists_back (count : Nat) (inside : count < tokens.length) :
    ∃ t, back? (count + 1) tokens = some t ∧ reachBack tokens count = .ok t := by
  have place : tokens.length - 1 - count = tokens.length - (count + 1) := by omega
  have within : tokens.length - (count + 1) < tokens.length := by omega
  refine ⟨tokens[tokens.length - (count + 1)], ?_, ?_⟩
  · rw [back?, if_pos (by omega), List.getElem?_eq_getElem within]
  · rw [reachBack, reach, List.getElem?_reverse inside, place, List.getElem?_eq_getElem within]

theorem look_back_eq {count : Nat} (inside : count < tokens.length) :
    look (back? (count + 1) tokens) = settled (reachBack tokens count) := by
  obtain ⟨t, found, reached⟩ := exists_back count inside
  rw [found, reached]
  rfl

/-- A lookup that does not miss, and a condition on what was found. -/
theorem look_demand {place : Nat} (inside : place < tokens.length) (holds : Token → Bool) :
    (look tokens[place]? >>= fun t => demand .misfit (holds t)) =
      settled (reach tokens place >>= fun t => require .misfit (holds t)) := by
  rw [look_eq inside, settled_bind]
  simp only [demand_eq]

theorem surveySecond_eq (kind : Token → Bool) (tokens : List Token) :
    surveySecond kind tokens = settled (do
      require .misfit (tokens.length == 3)
      require .misfit (kind (← reach tokens 1))) := by
  apply demand_bind
  intro three
  have length := beq_iff_eq.1 three
  exact look_demand (by omega) kind

theorem surveyDim_eq (tokens : List Token) : surveyDim tokens = settled (checkDim tokens) := by
  apply demand_bind
  intro four
  have length := beq_iff_eq.1 four
  rw [settled_bind, look_eq (by omega)]
  congr 1
  funext first
  apply demand_bind
  intro _
  exact look_demand (by omega) Token.isNumber

theorem surveyBranch_eq (tokens : List Token) : surveyBranch tokens = settled (checkBranch tokens) := by
  unfold surveyBranch checkBranch
  cases found : tokens.findIdx? (Token.isNamed "THEN") with
  | none => rfl
  | some place =>
      have inside : place ≤ tokens.length := (List.findIdx?_eq_some_iff_getElem.1 found).1.le
      have front : look (upTo? place tokens) = pure (tokens.take place) := by
        rw [upTo?, if_pos inside]
        rfl
      dsimp only
      rw [front, pure_bind]
      apply demand_bind
      intro _
      apply demand_bind
      intro _
      apply demand_bind
      intro ends
      have length := beq_iff_eq.1 ends
      exact look_demand (by omega) Token.isNumber

theorem surveyDraw_eq (long : 2 ≤ tokens.length) : surveyDraw tokens = settled (checkDraw tokens) := by
  unfold surveyDraw checkDraw
  rw [settled_bind, look_eq long]
  obtain ⟨phase, found⟩ : ∃ phase, reach tokens 1 = .ok phase := by
    rw [reach, List.getElem?_eq_getElem long]
    exact ⟨_, rfl⟩
  rw [found]
  show (if phase.isNamed "FINISH" then _ else _) = settled (if phase.isNamed "FINISH" then _ else _)
  split
  · exact demand_eq _ _
  · apply demand_bind
    intro _
    exact demand_eq _ _

theorem surveyFigure_eq (commas : Nat) (tokens : List Token) (last : Token) :
    surveyFigure commas tokens last = settled (checkFigure commas tokens last) := by
  apply demand_bind
  intro _
  dsimp only
  split
  · rename_i filled
    have long := of_decide_eq_true (Bool.and_eq_true_iff.1 filled).2
    rw [look_back_eq (by omega), settled_bind]
    simp only [demand_eq]
  · exact demand_eq _ _

theorem surveyWord_eq (word : Word) (long : 2 ≤ tokens.length) (last : Token) :
    surveyWord word tokens last = settled (checkWord word tokens last) := by
  cases word with
  | dim => exact surveyDim_eq tokens
  | goto => exact surveySecond_eq Token.isNumber tokens
  | input => exact surveySecond_eq Token.isName tokens
  | branch => exact surveyBranch_eq tokens
  | draw => exact surveyDraw_eq long
  | plot | line | rectangle => exact surveyFigure_eq _ tokens last
  | assign | print | halt => rfl

theorem survey_word {word : Word} {rest : List Token} (long : 2 ≤ (.word word :: rest : List Token).length) :
    survey (.word word :: rest) = some (check (.word word :: rest)) := by
  obtain ⟨last, found, reached⟩ := exists_back 1 long
  simp only [survey, check, found, reached, Option.bind_eq_bind, Option.bind_some]
  rw [surveyWord_eq word long last]
  rfl

/-- On a line that ends where it should, the check by places comes out as the check does. -/
theorem survey_eq (body : List Token) :
    survey (body ++ [.endOfLine]) = some (check (body ++ [.endOfLine])) := by
  cases body with
  | nil => rfl
  | cons t rest =>
      cases t with
      | word word => exact survey_word (by simp)
      | _ => rfl

/-- Without the end of the line the lookup of the token before it misses. -/
example : survey [.word .draw] = none := rfl

end Shape

/-! ### Lines -/

namespace Line

/-- Replaces the signs of a written line and checks its shape, by places. -/
def surveyWritten (label : Label) (quoted : String) (written : List Token) :
    Option (Except Diagnostic (List Token)) := do
  let tokens ← Token.expandSigns? written
  let afterLabel ← Token.from? 1 tokens
  let shape ← Shape.survey afterLabel
  some (do
    shape.mapError fun (word, flaw) => Shape.report label quoted word flaw
    pure tokens)

/-- Cuts a source line into tokens by places. -/
def survey (s : String) : Option (Except Diagnostic (List Token)) := do
  let line := normalize s
  let quoted := String.ofList line
  let (field, rest) ← Text.splitAtByte? (Text.fieldEnd line) line
  if Label.isField field then
    let label := String.ofList field
    match Token.scan rest with
    | .ok body => surveyWritten label quoted (.label label :: body ++ [.endOfLine])
    | .error c =>
        some (.error
          { code := .illegalCharacter
            label := some label
            detail := "'" ++ c.toString ++ "' IN " ++ quoted })
  else some (.error { code := .missingLabel, detail := quoted })

/-- The label is still the first token once the signs are replaced, and the end of the line the last. -/
theorem surveyWritten_eq (label : Label) (quoted : String) (body : List Token) :
    surveyWritten label quoted (.label label :: body ++ [.endOfLine]) = some (do
      let tokens := Token.expandSigns (.label label :: body ++ [.endOfLine])
      Shape.diagnose label quoted tokens.tail
      pure tokens) := by
  have afterLabel : Token.from? 1 (.label label :: Token.expandFrom true body ++ [.endOfLine]) =
      some (Token.expandFrom true body ++ [.endOfLine]) := if_pos (by simp)
  rw [surveyWritten, Token.expandSigns?_eq, expandSigns_line]
  simp only [Option.bind_eq_bind, Option.bind_some, afterLabel, Shape.survey_eq]
  rfl

/-- No place that the survey of a line asks for is missing, and it comes out as the reading of the line. -/
theorem survey_eq (s : String) : survey s = some (tokenize s) := by
  have cut := split_field (normalize s)
  simp only [survey, tokenize, cut, scan, Option.bind_eq_bind, Option.bind_some]
  split
  · cases Token.scan ((normalize s).dropWhile isFieldChar) with
    | error c => rfl
    | ok body => exact surveyWritten_eq _ _ body
  · rfl

/-- Every place that is asked for while a line is read exists at the moment it is asked for, be it a byte of
    the line, the position of a sign, or the number of a token from the front or from the end. So every line
    has an outcome, which is its tokens or a report that belongs to cutting it into tokens. -/
theorem no_place_missing (s : String) :
    survey s = some (tokenize s) ∧
      ((∃ tokens, survey s = some (.ok tokens)) ∨
        ∃ problem, survey s = some (.error problem) ∧ problem.kind = .lexical) := by
  have same := survey_eq s
  refine ⟨same, ?_⟩
  cases outcome : tokenize s with
  | ok tokens =>
      rw [outcome] at same
      exact Or.inl ⟨tokens, same⟩
  | error problem =>
      rw [outcome] at same
      exact Or.inr ⟨problem, same, (tokenize_error outcome).1⟩

end Line

end Plotline

/-
Module: Plotline.Proofs.DocumentText
Layer: Proofs
Purpose: No source text leads to a broken document. Documents are put together without escaping, so what
  keeps them whole is what can get into an attribute: numbers are written in digits, points, hyphens and a
  few letters (`Number.text_isPlain`), and a colour is a name that stood in a line
  (`Listing.load_colors`), whose letters are lowered. No such text holds a quote, a bracket or the end of a
  line; hence a document has the lines that were drawn and no others (`Canvas.lines_document`).
Main exports: Text.IsPlain, Number.text_isPlain, Figure.attributes_isPlain, Grammar.Items.color_mem,
  Listing.load_colors, Canvas.lines_document, Canvas.values_isPlain, Machine.program_after,
  Machine.documents_unbroken
-/
import Plotline.Proofs.DrawingCheck
import Plotline.Proofs.DrawnDocument
import Plotline.Proofs.ListingLines
import Plotline.Proofs.PrintedStatement

namespace Plotline

/-! ### Plain texts -/

namespace Text

/-- A character that numbers and colours are written with: a lower-case letter, a digit, a point, a hyphen,
    or the capital letter in the text of what is no number. -/
def isPlain (c : Char) : Bool :=
  c.isLower || c.isDigit || c == '.' || c == '-' || c == 'N'

/-- A text that an attribute can hold as it is. -/
def IsPlain (text : String) : Prop :=
  ∀ c ∈ text.toList, isPlain c = true

instance (text : String) : Decidable (IsPlain text) :=
  List.decidableBAll _ text.toList

/-- A character that stays on its line: a visible one or a space. -/
def isInline (c : Char) : Bool :=
  isVisible c || c == ' '

/-- A text that stays on its line. -/
def IsInline (text : String) : Prop :=
  ∀ c ∈ text.toList, isInline c = true

instance (text : String) : Decidable (IsInline text) :=
  List.decidableBAll _ text.toList

theorem IsInline.append {first second : String} (left : IsInline first) (right : IsInline second) :
    IsInline (first ++ second) := by
  rw [IsInline, String.toList_append]
  exact List.forall_mem_append.2 ⟨left, right⟩

theorem IsPlain.isInline {text : String} (plain : IsPlain text) : IsInline text := by
  intro c mem
  have visible : isVisible c = true := by
    have isPlain := plain c mem
    simp only [Text.isPlain, Bool.or_eq_true, beq_iff_eq, isLower_iff, Char.isDigit_iff_toNat,
      Char.reduceToNat] at isPlain
    rw [isVisible_iff]
    rcases isPlain with (((lower | digit) | rfl) | rfl) | rfl
    · omega
    · omega
    · decide
    · decide
    · decide
  rw [Text.isInline, visible]
  rfl

/-- A plain text holds nothing that would end an attribute, an element or a line. -/
theorem IsPlain.not_mem {text : String} (plain : IsPlain text) :
    ∀ c ∈ ['"', '<', '>', '&', '\n'], c ∉ text.toList := by
  intro c special mem
  have isPlain := plain c mem
  simp only [List.mem_cons, List.not_mem_nil, or_false] at special
  rcases special with rfl | rfl | rfl | rfl | rfl <;> exact absurd isPlain (by decide)

end Text

/-- However a number is written, it is written in plain characters. -/
theorem Number.text_isPlain (x : Float) : Text.IsPlain (text x) := by
  have numerals : ∀ c, Token.isNumeral c = true → Text.isPlain c = true := by
    intro c numeral
    rw [Token.isNumeral, Bool.or_eq_true] at numeral
    rcases numeral with digit | point
    · simp [Text.isPlain, digit]
    · simp [Text.isPlain, point]
  have unsigned : ∀ c ∈ (if isFinite x then (magnitude x).text else "inf".toList),
      Text.isPlain c = true := by
    split
    · exact fun c mem => numerals c ((magnitude_numerals (magnitude x)).2 c mem)
    · exact (by decide +kernel : Text.IsPlain "inf")
  rw [Text.IsPlain, text, String.toList_ofList, characters]
  split
  · exact (by decide +kernel : Text.IsPlain "NaN")
  · dsimp only
    split
    · exact List.forall_mem_cons.2 ⟨rfl, unsigned⟩
    · exact unsigned

namespace Figure

/-- The colour of a figure, as it was written. -/
def color : Figure → String
  | circle _ _ _ color _ | line _ _ _ _ color | rectangle _ _ _ _ color _ => color

/-- A name with its letters lowered is plain. -/
theorem paint_isPlain {color : String} (isName : Token.IsName color) : Text.IsPlain (paint color) := by
  intro c mem
  rw [paint, String.toList_ofList, Text.lower] at mem
  obtain ⟨d, written, rfl⟩ := List.mem_map.1 mem
  have lowered := Text.toNat_toLower d
  simp only [Text.isUpper_iff] at lowered
  have lower : d.toLower.isLower = true ∨ d.toLower.isDigit = true := by
    have alphanumeric := isName.alphanumeric d written
    rw [Text.isAlphanum_iff, Text.isAlpha_iff] at alphanumeric
    simp only [Text.isLower_iff, Char.isDigit_iff_toNat, Char.reduceToNat] at alphanumeric ⊢
    split at lowered
    · omega
    · omega
  rcases lower with letter | digit
  · simp [Text.isPlain, letter]
  · simp [Text.isPlain, digit]

theorem fill_isPlain {color : String} (isName : Token.IsName color) (filled : Bool) :
    Text.IsPlain (fill color filled) := by
  cases filled with
  | true => exact paint_isPlain isName
  | false => exact (by decide +kernel : Text.IsPlain "none")

/-- Every attribute of a figure whose colour is a name holds a plain text. -/
theorem attributes_isPlain {f : Figure} (isName : Token.IsName f.color) :
    ∀ a ∈ f.attributes, Text.IsPlain a.2 := by
  have painted := paint_isPlain isName
  have inside := fill_isPlain isName
  cases f with
  | circle _ _ _ _ filled => simpa [attributes, Number.text_isPlain] using ⟨painted, inside filled⟩
  | line x1 y1 x2 y2 name =>
      have painted : Text.IsPlain (paint name) := painted
      simpa [attributes, Number.text_isPlain] using painted
  | rectangle _ _ _ _ _ filled => simpa [attributes, Number.text_isPlain] using ⟨painted, inside filled⟩

end Figure

/-! ### The lines of a document -/

theorem Text.splitLines_newline {line : List Char} (inline : ∀ c ∈ line, isInline c = true)
    (rest : List Char) : splitLines (line ++ '\n' :: rest) = line :: splitLines rest := by
  induction line with
  | nil => rw [List.nil_append, splitLines]
  | cons c line ih =>
      obtain ⟨first, others⟩ := List.forall_mem_cons.1 inline
      have notNewline : c = '\n' → False := by
        rintro rfl
        cases first
      have notReturn : ∀ more, c = '\r' → line ++ '\n' :: rest = '\n' :: more → False := by
        rintro _ rfl
        cases first
      rw [List.cons_append, splitLines.eq_4 _ _ notNewline notReturn, ih others]

namespace Canvas

theorem toList_joinLines {lines : List String} (nonempty : lines ≠ []) :
    (joinLines lines).toList = lines.flatMap fun line => line.toList ++ ['\n'] := by
  induction lines with
  | nil => exact absurd rfl nonempty
  | cons line rest ih =>
      cases rest with
      | nil => simp [joinLines]
      | cons next rest =>
          have later := ih (by simp)
          rw [List.flatMap_cons, ← later]
          simp [joinLines, String.intercalate_cons_cons]

/-- Joined lines that hold no line ends are the lines of the text. -/
theorem lines_joinLines {lines : List String} (nonempty : lines ≠ [])
    (inline : ∀ line ∈ lines, Text.IsInline line) :
    Text.lines (joinLines lines) = lines := by
  have split : Text.splitLines (lines.flatMap fun line => line.toList ++ ['\n']) =
      lines.map String.toList := by
    clear nonempty
    induction lines with
    | nil => rfl
    | cons line rest ih =>
        obtain ⟨first, others⟩ := List.forall_mem_cons.1 inline
        rw [List.flatMap_cons, List.append_assoc, List.singleton_append,
          Text.splitLines_newline first, ih others, List.map_cons]
  rw [Text.lines, toList_joinLines nonempty, split, List.map_map]
  simp

theorem attributeText_isInline {name value : String} (named : Text.IsInline name)
    (held : Text.IsInline value) : Text.IsInline (Figure.attributeText name value) := by
  have space : Text.IsInline " " := by decide +kernel
  have opens : Text.IsInline "=\"" := by decide +kernel
  have closes : Text.IsInline "\"" := by decide +kernel
  exact (((space.append named).append opens).append held).append closes

theorem rootTag_isInline (width height : Float) : Text.IsInline (rootTag width height) := by
  have opens : Text.IsInline "<svg" := by decide +kernel
  have dialect : Text.IsInline (Figure.attributeText "xmlns" "http://www.w3.org/2000/svg") := by
    decide +kernel
  have wide : Text.IsInline (Figure.attributeText "width" (Number.text width)) :=
    attributeText_isInline (by decide +kernel) (Number.text_isPlain width).isInline
  have high : Text.IsInline (Figure.attributeText "height" (Number.text height)) :=
    attributeText_isInline (by decide +kernel) (Number.text_isPlain height).isInline
  exact (((opens.append dialect).append wide).append high).append (by decide +kernel)

theorem attributeNames_isInline (f : Figure) : ∀ a ∈ f.attributes, Text.IsInline a.1 := by
  have named : ∀ name ∈ f.attributes.map Prod.fst, Text.IsInline name := by
    cases f with
    | circle => exact (by decide +kernel : ∀ name ∈ ["cx", "cy", "r", "stroke", "fill"], Text.IsInline name)
    | line => exact (by decide +kernel : ∀ name ∈ ["x1", "y1", "x2", "y2", "stroke"], Text.IsInline name)
    | rectangle =>
        exact (by decide +kernel :
          ∀ name ∈ ["x", "y", "width", "height", "stroke", "fill"], Text.IsInline name)
  exact fun a mem => named a.1 (List.mem_map_of_mem mem)

theorem element_isInline {f : Figure} (isName : Token.IsName f.color) : Text.IsInline f.element := by
  have opens : Text.IsInline "<" := by decide +kernel
  have tagged : Text.IsInline f.tag := by
    have tags : Text.IsInline "circle" ∧ Text.IsInline "line" ∧ Text.IsInline "rect" := by decide +kernel
    cases f with
    | circle => exact tags.1
    | line => exact tags.2.1
    | rectangle => exact tags.2.2
  have listed : Text.IsInline
      (String.join (f.attributes.map fun a => Figure.attributeText a.1 a.2)) := by
    intro c mem
    rw [String.toList_join] at mem
    obtain ⟨text, written, mem⟩ := List.mem_flatMap.1 mem
    obtain ⟨a, isAttribute, rfl⟩ := List.mem_map.1 written
    have plain := Figure.attributes_isPlain isName a isAttribute
    exact attributeText_isInline (attributeNames_isInline f a isAttribute) plain.isInline c mem
  exact ((opens.append tagged).append listed).append (by decide +kernel)

end Canvas

/-! ### Colours -/

namespace Grammar

theorem Paint.color_mem {ts : List Token} {color : String} {filled : Bool} (h : Paint ts color filled) :
    .name color ∈ ts := by
  cases h with
  | plain | filled => exact List.mem_cons_self

/-- The colour of a command is one of the names it is written with. -/
theorem Cmd.color_mem {ts : List Token} {c : Command} (h : Cmd ts c) :
    ∀ color ∈ c.color?, .name color ∈ ts := by
  cases h with
  | line corners paint | plot corners paint | rectangle corners paint =>
      rintro _ ⟨⟩
      exact List.mem_cons_of_mem _ (List.mem_append_right _ paint.color_mem)
  | _ => exact fun _ none => nomatch none

theorem Items.color_mem {current : Option Label} {r last : Region} {ts : List Token}
    {statements : List Statement} (h : Items current r ts statements last) :
    ∀ s ∈ statements, ∀ color ∈ s.command.color?, .name color ∈ ts := by
  induction h with
  | nil => simp
  | label _ _ _ ih => exact fun s mem color written => List.mem_cons_of_mem _ (ih s mem color written)
  | command head _ _ ih =>
      refine List.forall_mem_cons.2 ⟨?_, ?_⟩
      · exact fun color written => List.mem_append_left _ (head.color_mem color written)
      · exact fun s mem color written => List.mem_append_right _ (ih s mem color written)

end Grammar

/-- Neither the label nor the end of a line is a name, so every name of it can be written. -/
theorem Line.IsCanonical.isName_of_mem {ts : List Token} (canonical : IsCanonical ts) {name : String}
    (mem : .name name ∈ ts) : Token.IsName name := by
  cases canonical with
  | intro _ written _ _ =>
      simp only [List.cons_append, List.mem_cons, List.mem_append, reduceCtorEq, List.not_mem_nil,
        or_false, false_or] at mem
      exact written _ mem

namespace Listing

/-- The colours in the statements of a line are names. -/
theorem gained_colors (step : Listing × String) :
    ∀ s ∈ gained step, ∀ color ∈ s.command.color?, Token.IsName color := by
  intro s mem color colored
  obtain ⟨us, rest, last, cut, items⟩ := gained_read mem
  apply (Line.isCanonical_of_tokenize cut).isName_of_mem
  exact List.mem_append_left rest (items.color_mem s mem color colored)

/-- The colours in the statements of a source text are names. -/
theorem load_colors (source : String) :
    ∀ s ∈ (load source).statements, ∀ color ∈ s.command.color?, Token.IsName color := by
  have gathered : (load source).statements =
      ((steps {} (Text.lines source)).filter isReadable).flatMap gained :=
    (takeLines_eq {} (Text.lines source)).1
  intro s mem
  rw [gathered] at mem
  obtain ⟨step, _, mem⟩ := List.mem_flatMap.1 mem
  exact gained_colors step s mem

end Listing

/-! ### Documents -/

theorem Visit.Draws.color {v : Visit} {f : Figure} (draws : v.Draws f) :
    v.statement.command.color? = some f.color := by
  cases draws with
  | circle command | line command | rectangle command => rw [command]; rfl

/-- Figures have the colours of the statements that draw them. -/
theorem Visit.isName_of_draws {visits : List Visit} {figures : List Figure}
    (drew : List.Forall₂ Visit.Draws visits figures)
    (named : ∀ v ∈ visits, ∀ color ∈ v.statement.command.color?, Token.IsName color) :
    ∀ f ∈ figures, Token.IsName f.color := by
  induction drew with
  | nil => simp
  | cons draws _ ih =>
      obtain ⟨first, others⟩ := List.forall_mem_cons.1 named
      exact List.forall_mem_cons.2 ⟨first _ draws.color, ih others⟩

namespace Canvas

/-- The element of a figure is neither the opening nor the closing line of a document. -/
theorem element_ne_tag (f : Figure) :
    f.element ≠ closingTag ∧ ∀ width height, f.element ≠ rootTag width height := by
  have second : f.element.toList[1]? ≠ some '/' ∧ f.element.toList[1]? ≠ some 's' := by
    cases f with
    | circle | line | rectangle => simp [Figure.element, Figure.markup, Figure.tag]
  constructor
  · intro same
    rw [same] at second
    exact second.1 rfl
  · intro width height same
    rw [same] at second
    exact second.2 (by simp [rootTag])

/-- A document of figures whose colours are names has the lines that were drawn and no others. -/
theorem lines_document (width height : Float) {figures : List Figure}
    (named : ∀ f ∈ figures, Token.IsName f.color) :
    Text.lines (showing width height figures).document =
      rootTag width height :: figures.map Figure.element ++ [closingTag] := by
  apply lines_joinLines
  · simp [showing]
  · intro line mem
    simp only [showing, List.mem_append, List.mem_cons, List.mem_map, List.not_mem_nil, or_false] at mem
    rcases mem with (rfl | ⟨f, drawn, rfl⟩) | rfl
    · exact rootTag_isInline width height
    · exact element_isInline (named f drawn)
    · exact (by decide +kernel : Text.IsInline closingTag)

/-- Every attribute of a document that is written from the program is plain. -/
theorem values_isPlain (width height : Float) {figures : List Figure}
    (named : ∀ f ∈ figures, Token.IsName f.color) :
    ∀ value ∈ Number.text width :: Number.text height ::
      figures.flatMap (fun f => f.attributes.map Prod.snd), Text.IsPlain value := by
  intro value mem
  simp only [List.mem_cons, List.mem_flatMap, List.mem_map] at mem
  rcases mem with rfl | rfl | ⟨f, drawn, a, isAttribute, rfl⟩
  · exact Number.text_isPlain width
  · exact Number.text_isPlain height
  · exact Figure.attributes_isPlain (named f drawn) a isAttribute

end Canvas

namespace Machine

/-- A property that all statements have which are loaded is one of all statements of the program. -/
theorem program_after {P : Statement → Prop} {m : Machine} {calls : List Call}
    (here : ∀ address s, m.program.statement? address = some s → P s)
    (loaded : ∀ listing, .load listing ∈ calls → ∀ s ∈ listing.statements, P s) :
    ∀ address s, (m.after calls).program.statement? address = some s → P s := by
  induction calls generalizing m with
  | nil => exact here
  | cons c rest ih =>
      refine ih ?_ fun listing mem => loaded listing (List.mem_cons_of_mem c mem)
      cases c with
      | load listing =>
          intro address s found
          have found : (Program.ofStatements listing.statements).statement? address = some s := found
          rw [Program.statement?_ofStatements] at found
          exact loaded listing List.mem_cons_self s (List.mem_of_getElem? found)
      | execute | enter | interrupt | fail =>
          rw [call_program _ _ (by simp)]
          exact here

/-- No source text leads to a broken document. Take any calls on a new machine that load nothing but source
    texts, and a document that it then hands out. Every attribute written from the program is plain, and so
    holds no quote, bracket, ampersand or line feed. Hence the lines of the document are the opening line
    first, one line for each statement carried out that draws, and the closing line last, and no line in
    between opens or closes a document. -/
theorem documents_unbroken (generator : Generator) (calls : List Call)
    (fromSources : ∀ listing, .load listing ∈ calls → ∃ source, listing = Listing.load source)
    (budget : Nat) (document : String)
    (handedOut : (((new generator).after calls).execute budget).1 = .drawing document) :
    ∃ earlier start since finish width height figures,
      (new generator).visitsSinceLoad [] calls ++ ((new generator).after calls).executeVisits budget =
        earlier ++ start :: since ++ [finish] ∧
      start.Starts width height ∧ finish.statement.command = .drawFinish ∧
      (∀ v ∈ since, v.statement.command.isBoundary = false) ∧
      List.Forall₂ Visit.Draws (since.filter (·.statement.command.isFigure)) figures ∧
      document = Canvas.joinLines (Text.lines document) ∧
      Text.lines document =
        Canvas.rootTag width height :: figures.map Figure.element ++ [Canvas.closingTag] ∧
      (∀ f ∈ figures, f.element ≠ Canvas.closingTag ∧ ∀ w h, f.element ≠ Canvas.rootTag w h) ∧
      ∀ value ∈ Number.text width :: Number.text height ::
          figures.flatMap (fun f => f.attributes.map Prod.snd),
        Text.IsPlain value ∧ ∀ c ∈ ['"', '<', '>', '&', '\n'], c ∉ value.toList := by
  have sound := IsSound.calls calls (IsSound.new generator)
  have depicts := Depicts.isKept.calls [] calls (m := new generator) (Or.inl rfl)
  have loaded : ∀ listing, .load listing ∈ calls → ∀ s ∈ listing.statements,
      ∀ color ∈ s.command.color?, Token.IsName color := by
    intro listing mem
    obtain ⟨source, rfl⟩ := fromSources listing mem
    exact Listing.load_colors source
  have named := program_after (m := new generator) (by simp [new, Program.empty, Program.statement?]) loaded
  obtain ⟨before, finish, width, height, figures, visits, isFinish, underWay, rfl⟩ :=
    underWay_of_drawing depicts handedOut
  obtain ⟨earlier, start, since, split, starts, carriedOn, drew⟩ := underWay
  have whole : (new generator).visitsSinceLoad [] calls ++
      ((new generator).after calls).executeVisits budget = earlier ++ start :: since ++ [finish] := by
    rw [visits, ← List.append_assoc, split]
  -- The statements carried out are those of the program, and the program was loaded.
  have isName : ∀ f ∈ figures, Token.IsName f.color := by
    have inProgram := (IsSound.isKept.call sound (.execute budget) (by simp)).ran_mem
    simp only [callVisits, call, execute_program, whole] at inProgram
    apply Visit.isName_of_draws drew
    intro v mem
    have visited : v ∈ earlier ++ start :: since ++ [finish] := by
      simp [List.mem_of_mem_filter mem]
    exact named _ _ (inProgram v visited)
  have lines := Canvas.lines_document width height isName
  refine ⟨earlier, start, since, finish, width, height, figures, whole, starts, isFinish,
    fun v mem => (carriedOn v mem).1, drew, ?_, lines, fun f _ => Canvas.element_ne_tag f, ?_⟩
  · rw [lines]
    rfl
  · intro value mem
    have plain := Canvas.values_isPlain width height isName value mem
    exact ⟨plain, plain.not_mem⟩

/-- A dot whose colour is written in both cases. -/
def dot : String :=
  "10 DRAW START 9, 9\n20 PLOT 1, 2, 3, Red\n30 DRAW FINISH\n"

/-- The document of the dot. -/
def dotDocument : String :=
  "<svg xmlns=\"http://www.w3.org/2000/svg\" width=\"9\" height=\"9\">\n" ++
    "<circle cx=\"1\" cy=\"2\" r=\"3\" stroke=\"red\" fill=\"none\" />\n</svg>\n"

theorem documents_unbroken_dot :
    (((new (.constant 0)).after [.load (Listing.load dot)]).execute 9).1 = .drawing dotDocument ∧
      ∃ (width height : Float) (figures : List Figure), Text.lines dotDocument =
        Canvas.rootTag width height :: figures.map Figure.element ++ [Canvas.closingTag] := by
  have fromSource : ∀ listing, .load listing ∈ [Call.load (Listing.load dot)] →
      ∃ source, listing = Listing.load source := by
    intro listing mem
    exact ⟨dot, Call.load.inj (List.mem_singleton.1 mem)⟩
  have handedOut : (((new (.constant 0)).after [.load (Listing.load dot)]).execute 9).1 =
      .drawing dotDocument := by
    decide +kernel
  obtain ⟨_, _, _, _, width, height, figures, _, _, _, _, _, _, lines, _⟩ :=
    documents_unbroken (.constant 0) [.load (Listing.load dot)] fromSource 9 dotDocument handedOut
  exact ⟨handedOut, width, height, figures, lines⟩

end Machine

end Plotline

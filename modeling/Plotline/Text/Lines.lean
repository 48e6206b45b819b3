/-
Module: Plotline.Text.Lines
Layer: Text
Purpose: Cutting a source text into lines. A line ends at a line feed, together with one carriage return
  right before it, and a line feed at the very end of the text starts no further line.
Main exports: Text.lines
-/

namespace Plotline

namespace Text

/-- The lines of a text, as character lists. A text that ends with a line feed has no empty last line. -/
def splitLines : List Char → List (List Char)
  | [] => []
  | '\n' :: rest => [] :: splitLines rest
  | '\r' :: '\n' :: rest => [] :: splitLines rest
  | c :: rest =>
      match splitLines rest with
      | [] => [[c]]
      | line :: more => (c :: line) :: more

/-- The lines of a source text. -/
def lines (text : String) : List String :=
  (splitLines text.toList).map String.ofList

end Text

end Plotline

/-
Module: Plotline.Token.Scanner
Layer: Language
Purpose: Cutting the text after a label into tokens. A number is the longest run of digits and points, a
  word the longest run of letters and digits after a letter, and quoted text runs to the next quote or to
  the end of the line. The first character that can start no token stops the scan and is its error.
Main exports: Token.scan
-/
import Plotline.Text.Blank
import Plotline.Token

namespace Plotline

namespace Token

/-- A character of a number literal. -/
def isNumeral (c : Char) : Bool :=
  c.isDigit || c == '.'

/-- A character other than the one that ends quoted text. -/
def isInsideQuotes (c : Char) : Bool :=
  c != '"'

theorem length_dropWhile_le (p : Char → Bool) (cs : List Char) :
    (cs.dropWhile p).length ≤ cs.length :=
  (List.dropWhile_suffix p).length_le

/-- The tokens of a text, or the first character that can start none. -/
def scan : List Char → Except Char (List Token)
  | [] => .ok []
  | c :: rest =>
      if Text.isSpace c then scan rest
      else if isNumeral c then
        let token := number (String.ofList (c :: rest.takeWhile isNumeral))
        (scan (rest.dropWhile isNumeral)).map (token :: ·)
      else if c.isAlpha then
        let token := ofWord (String.ofList (c :: rest.takeWhile Char.isAlphanum))
        (scan (rest.dropWhile Char.isAlphanum)).map (token :: ·)
      else if c == '"' then
        let token := quoted (String.ofList (rest.takeWhile isInsideQuotes))
        (scan ((rest.dropWhile isInsideQuotes).drop 1)).map (token :: ·)
      else
        match ofMark? c with
        | some token => (scan rest).map (token :: ·)
        | none => .error c
termination_by cs => cs.length
decreasing_by
  all_goals
    have hNumeral := length_dropWhile_le isNumeral rest
    have hWord := length_dropWhile_le Char.isAlphanum rest
    have hQuoted := length_dropWhile_le isInsideQuotes rest
    simp only [List.length_cons, List.length_drop]
    omega

end Token

end Plotline

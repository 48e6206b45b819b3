/-
Module: Plotline.Text.Blank
Layer: Text
Purpose: Which characters are blank, and cutting them off the ends of a text. Two classes are in use. The
  wide class is the Unicode property White_Space and governs trimming. The narrow class is the four
  characters that separate tokens inside a line.
Main exports: Text.isBlank, Text.isSpace, Text.trimStart, Text.trim, Text.upper
-/

namespace Plotline

namespace Text

/-- The code points with the Unicode property White_Space, as inclusive ranges in ascending order. -/
def blankRanges : List (Nat × Nat) :=
  [(0x09, 0x0D), (0x20, 0x20), (0x85, 0x85), (0xA0, 0xA0), (0x1680, 0x1680), (0x2000, 0x200A),
    (0x2028, 0x2029), (0x202F, 0x202F), (0x205F, 0x205F), (0x3000, 0x3000)]

/-- A character with the Unicode property White_Space. -/
def isBlank (c : Char) : Bool :=
  blankRanges.any fun (low, high) => low ≤ c.toNat && c.toNat ≤ high

/-- A character that separates tokens: space, tab, carriage return or line feed. -/
def isSpace (c : Char) : Bool :=
  c == ' ' || c == '\t' || c == '\r' || c == '\n'

/-- The text without the blank characters it starts with. -/
def trimStart (cs : List Char) : List Char :=
  cs.dropWhile isBlank

/-- The text without the blank characters it ends with. -/
def trimEnd (cs : List Char) : List Char :=
  (cs.reverse.dropWhile isBlank).reverse

/-- The text without the blank characters at either end. -/
def trim (cs : List Char) : List Char :=
  trimEnd (trimStart cs)

/-- ASCII letters in upper case; every other character stays as it is. -/
def upper (cs : List Char) : List Char :=
  cs.map Char.toUpper

/-- ASCII letters in lower case; every other character stays as it is. -/
def lower (cs : List Char) : List Char :=
  cs.map Char.toLower

/-- The narrow class lies inside the wide one, so a trimmed text neither starts nor ends with a
    separator. -/
theorem isBlank_of_isSpace {c : Char} (h : isSpace c = true) : isBlank c = true := by
  simp only [isSpace, Bool.or_eq_true, beq_iff_eq] at h
  rcases h with ((rfl | rfl) | rfl) | rfl <;> decide

end Text

end Plotline

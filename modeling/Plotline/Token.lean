/-
Module: Plotline.Token
Layer: Language
Purpose: The tokens of a source line: its label, command words, built-in functions, names, literals,
  operators and marks, and the token that ends every line. A command word or function is recognised by its
  exact spelling; every other word is a name, also those that only some statements give a meaning to.
Main exports: Word, Builtin, Operator, Token, Token.keyword?, Token.text, Token.precedesSign
-/
import Plotline.Label

namespace Plotline

/-- The command words. -/
inductive Word where
  | dim
  | draw
  | halt
  | goto
  | branch
  | input
  | assign
  | line
  | plot
  | print
  | rectangle
  deriving DecidableEq, Repr

namespace Word

/-- Every command word. -/
def all : List Word :=
  [.dim, .draw, .halt, .goto, .branch, .input, .assign, .line, .plot, .print, .rectangle]

/-- The spelling of a command word. -/
def text : Word → String
  | .dim => "DIM"
  | .draw => "DRAW"
  | .halt => "END"
  | .goto => "GOTO"
  | .branch => "IF"
  | .input => "INPUT"
  | .assign => "LET"
  | .line => "LINE"
  | .plot => "PLOT"
  | .print => "PRINT"
  | .rectangle => "RECTANGLE"

/-- The command word with a given spelling. -/
def ofText? (s : String) : Option Word :=
  all.find? (·.text == s)

/-- No two command words are spelled alike. -/
theorem ofText?_text (w : Word) : ofText? w.text = some w := by
  cases w <;> rfl

end Word

/-- The built-in functions. -/
inductive Builtin where
  | abs
  | cos
  | exp
  | log
  | rnd
  | sin
  | sqr
  | tan
  deriving DecidableEq, Repr

namespace Builtin

/-- Every built-in function. -/
def all : List Builtin :=
  [.abs, .cos, .exp, .log, .rnd, .sin, .sqr, .tan]

/-- The spelling of a function. -/
def text : Builtin → String
  | .abs => "ABS"
  | .cos => "COS"
  | .exp => "EXP"
  | .log => "LOG"
  | .rnd => "RND"
  | .sin => "SIN"
  | .sqr => "SQR"
  | .tan => "TAN"

/-- The function with a given spelling. -/
def ofText? (s : String) : Option Builtin :=
  all.find? (·.text == s)

/-- No two functions are spelled alike. -/
theorem ofText?_text (f : Builtin) : ofText? f.text = some f := by
  cases f <;> rfl

end Builtin

/-- The operator signs. The exclamation mark is a token but stands in no statement. -/
inductive Operator where
  | caret
  | times
  | divide
  | plus
  | minus
  | equal
  | less
  | greater
  | bang
  deriving DecidableEq, Repr

namespace Operator

/-- The character of an operator. -/
def symbol : Operator → Char
  | .caret => '^'
  | .times => '*'
  | .divide => '/'
  | .plus => '+'
  | .minus => '-'
  | .equal => '='
  | .less => '<'
  | .greater => '>'
  | .bang => '!'

/-- The operator written with a character. -/
def ofChar? : Char → Option Operator
  | '^' => some .caret
  | '*' => some .times
  | '/' => some .divide
  | '+' => some .plus
  | '-' => some .minus
  | '=' => some .equal
  | '<' => some .less
  | '>' => some .greater
  | '!' => some .bang
  | _ => none

/-- Binds tighter than a sign: the operand of a sign after it ends at the next such operator. -/
def isTight : Operator → Bool
  | .caret | .times | .divide => true
  | _ => false

/-- No two operators share a character. -/
theorem ofChar?_symbol (op : Operator) : ofChar? op.symbol = some op := by
  cases op <;> rfl

end Operator

/-- A token. Number literals keep the text they were written with. -/
inductive Token where
  | label (text : Label)
  | word (word : Word)
  | builtin (function : Builtin)
  | name (text : String)
  | number (text : String)
  | quoted (text : String)
  | operator (op : Operator)
  | openParen
  | closeParen
  | openBracket
  | closeBracket
  | comma
  | endOfLine
  deriving DecidableEq, Repr

namespace Token

/-- The command word or function spelled by a text; case matters. -/
def keyword? (s : String) : Option Token :=
  match Word.ofText? s with
  | some w => some (.word w)
  | none => (Builtin.ofText? s).map .builtin

/-- A word of a source line: a keyword if it is spelled like one, else a name. -/
def ofWord (s : String) : Token :=
  (keyword? s).getD (.name s)

/-- The token written with a single character that belongs to no longer token. -/
def ofMark? : Char → Option Token
  | '(' => some .openParen
  | ')' => some .closeParen
  | '[' => some .openBracket
  | ']' => some .closeBracket
  | ',' => some .comma
  | c => (Operator.ofChar? c).map .operator

/-- The token as it stands in a source line. -/
def text : Token → String
  | label s => s
  | word w => w.text
  | builtin f => f.text
  | name s => s
  | number s => s
  | quoted s => "\"" ++ s ++ "\""
  | operator op => op.symbol.toString
  | openParen => "("
  | closeParen => ")"
  | openBracket => "["
  | closeBracket => "]"
  | comma => ","
  | endOfLine => ""

/-- The token is a name. -/
def isName : Token → Bool
  | name _ => true
  | _ => false

/-- The token is the name with the given spelling. -/
def isNamed (s : String) : Token → Bool
  | name t => t == s
  | _ => false

/-- The token is a number literal. -/
def isNumber : Token → Bool
  | number _ => true
  | _ => false

/-- The token is an operator. -/
def isOperator : Token → Bool
  | operator _ => true
  | _ => false

/-- The token is one of the three comparisons. -/
def isComparison : Token → Bool
  | operator .equal | operator .less | operator .greater => true
  | _ => false

/-- A minus after this token is a sign and no subtraction, and what it negates reaches to the next operator
    that binds less tightly. After `*`, `/` and `^` the operand is shorter, and the sign is left to the
    reader of expressions. -/
def precedesSign : Token → Bool
  | operator op => !op.isTight
  | label _ | word _ | openParen | openBracket | comma => true
  | _ => false

end Token

end Plotline

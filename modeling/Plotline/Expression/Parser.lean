/-
Module: Plotline.Expression.Parser
Layer: Language
Purpose: Reading an expression off the front of a token list. Powers bind tighter than products and these
  tighter than sums, and all three associate to the left. A minus in front of an operand negates the power
  that follows it and is read as a subtraction from zero.
  The recursion is bounded by a depth that starts at the number of tokens. Each nesting uses up a token, so
  the depth runs out only where the tokens have run out too.
Main exports: Expression.parse, Expression.parseSubscript
-/
import Plotline.Complaint
import Plotline.Expression
import Plotline.Number.Reader

namespace Plotline

namespace Expression

/-- The value of a number literal. -/
def parseNumber (text : String) : Read Float :=
  match Number.read? text with
  | some x => .ok x
  | none => .error (.malformedNumber text)

/-- The bracket that closes a subscript. -/
def closeSubscript (subscript : Subscript) : Reader Subscript
  | .closeBracket :: rest => .ok (subscript, rest)
  | _ => .error .expectedCloseBracket

/-- A subscript and its closing bracket. -/
def parseSubscript : Reader Subscript
  | .number text :: rest => do
      let x ← parseNumber text
      closeSubscript (.literal x) rest
  | .name name :: rest => closeSubscript (.name name) rest
  | _ => .error .expectedSubscript

/-- The operation of a power. -/
def powerOperator? : Token → Option Arithmetic
  | .operator .caret => some .power
  | _ => none

/-- The operation of a product. -/
def productOperator? : Token → Option Arithmetic
  | .operator .times => some .times
  | .operator .divide => some .divide
  | _ => none

/-- The operation of a sum. -/
def sumOperator? : Token → Option Arithmetic
  | .operator .plus => some .plus
  | .operator .minus => some .minus
  | _ => none

/-- Further operands after a first one, as long as an operator of the given level stands between them. The
    result associates to the left. -/
def chain (operand : Reader Expression) (operator? : Token → Option Arithmetic) :
    Nat → Expression → Reader Expression
  | depth + 1, lhs, token :: rest =>
      match operator? token with
      | none => .ok (lhs, token :: rest)
      | some op => do
          let (rhs, rest) ← operand rest
          chain operand operator? depth (.binary op lhs rhs) rest
  | _, lhs, tokens => .ok (lhs, tokens)

/-- Operands of one level with operators between them. -/
def level (operand : Reader Expression) (operator? : Token → Option Arithmetic)
    (depth : Nat) (tokens : List Token) : Read (Expression × List Token) := do
  let (lhs, rest) ← operand tokens
  chain operand operator? depth lhs rest

/-- A power, given how its operands are read. -/
def power (operand : Reader Expression) (depth : Nat) : Reader Expression :=
  level operand powerOperator? depth

/-- A product, given how the operands of its powers are read. -/
def product (operand : Reader Expression) (depth : Nat) : Reader Expression :=
  level (power operand depth) productOperator? depth

/-- A sum, given how the operands of its powers are read. -/
def sum (operand : Reader Expression) (depth : Nat) : Reader Expression :=
  level (product operand depth) sumOperator? depth

/-- One or more expressions with commas between them, and the closing parenthesis. -/
def nonemptyArguments (expression : Reader Expression) :
    Nat → Reader (List Expression)
  | 0, tokens => .error (.expectedExpression tokens.head?)
  | depth + 1, tokens => do
      let (first, rest) ← expression tokens
      match rest with
      | .closeParen :: rest => .ok ([first], rest)
      | .comma :: rest =>
          let (others, rest) ← nonemptyArguments expression depth rest
          .ok (first :: others, rest)
      | _ => .error .expectedEndOrSeparator

/-- The arguments of a call up to its closing parenthesis. Only some calls may have none. -/
def arguments (mayBeEmpty : Bool) (expression : Reader Expression) (depth : Nat) :
    Reader (List Expression)
  | .closeParen :: rest =>
      if mayBeEmpty then .ok ([], rest) else nonemptyArguments expression depth (.closeParen :: rest)
  | tokens => nonemptyArguments expression depth tokens

/-- The parenthesis that closes an expression. -/
def closeGroup (e : Expression) : Reader Expression
  | .closeParen :: rest => .ok (e, rest)
  | _ => .error .expectedCloseParen

/-- The operand of a power: a literal, a variable, a call, an expression in parentheses, or a minus and the
    power it negates. -/
def primary : Nat → Reader Expression
  | 0, tokens => .error (.expectedExpression tokens.head?)
  | depth + 1, tokens =>
      match tokens with
      | .number text :: rest => do
          let x ← parseNumber text
          .ok (.number x, rest)
      | .name name :: .openBracket :: rest => do
          let (subscript, rest) ← parseSubscript rest
          .ok (.var (.element name subscript), rest)
      | .name name :: .openParen :: rest => do
          let (given, rest) ← arguments true (sum (primary depth) depth) depth rest
          .ok (.call name given, rest)
      | .name name :: rest => .ok (.var (.scalar name), rest)
      | .builtin f :: .openParen :: rest => do
          let (given, rest) ← arguments (f == .rnd) (sum (primary depth) depth) depth rest
          .ok (.call f.text given, rest)
      | .builtin _ :: _ => .error .expectedOpenParen
      | .openParen :: rest => do
          let (e, rest) ← sum (primary depth) depth rest
          closeGroup e rest
      | .operator .minus :: rest => do
          let (e, rest) ← power (primary depth) depth rest
          .ok (.binary .minus (.number 0.0) e, rest)
      | _ => .error (.expectedExpression tokens.head?)

/-- Reads an expression off the front of a token list. -/
def parse (tokens : List Token) : Read (Expression × List Token) :=
  sum (primary tokens.length) tokens.length tokens

end Expression

end Plotline

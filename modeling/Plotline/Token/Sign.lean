/-
Module: Plotline.Token.Sign
Layer: Language
Purpose: Writing signs as products. A minus that is a sign is replaced by the six tokens `( 0 - 1 ) *`, so
  that expressions are read with binary operators only. Which minuses are signs is decided on the tokens as
  written; the replacements are then made from the back, so that earlier positions stay valid.
Main exports: Token.signPositions, Token.expandSigns
-/
import Plotline.Token

namespace Plotline

namespace Token

/-- The tokens that stand for a sign. -/
def signTokens : List Token :=
  [openParen, number "0", operator .minus, number "1", closeParen, operator .times]

/-- The second of two neighbouring tokens is a minus that is a sign. -/
def isSignAfter (before token : Token) : Bool :=
  token == operator .minus && before.precedesSign

/-- The positions of all signs, in ascending order. The first token is never one. -/
def signPositions (tokens : List Token) : List Nat :=
  ((tokens.zip tokens.tail).zipIdx 1).filterMap fun ((before, token), position) =>
    if isSignAfter before token then some position else none

/-- Puts the six tokens in place of the token at a position. -/
def spliceSign (position : Nat) (tokens : List Token) : List Token :=
  tokens.take position ++ signTokens ++ tokens.drop (position + 1)

/-- Replaces every sign, the last one first. -/
def expandSigns (tokens : List Token) : List Token :=
  (signPositions tokens).foldr spliceSign tokens

end Token

end Plotline

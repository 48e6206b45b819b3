/-
Module: Plotline.Proofs.SignExpansion
Layer: Proofs
Purpose: The replacement of signs as one pass from front to back. `Token.expandSigns` collects positions and
  splices from the back; `Token.expandFrom` looks at each token once and knows of the tokens before it only
  whether a minus is a sign here. The two agree (`Token.expandSigns_eq`). So the signs of a phrase are
  replaced whatever follows it (`Token.Expands`), and phrases are put together without looking at the whole
  line again.
  After the replacement no sign is left, and a list without signs is not changed by it. Place by place, a
  token is replaced or kept as the token before it in the written list says (`Token.expansionAt`).
Main exports: Token.expandFrom, Token.expandSigns_eq, Token.Expands, Token.SignFree,
  Token.signFree_expandFrom, Token.SignFree.expandFrom_eq, Token.expansionAt, Token.signs_replaced_once
-/
import Mathlib.Data.List.Chain
import Plotline.Token.Sign

namespace Plotline

namespace Token

/-- Replaces the signs of a token list. The flag says whether a minus in front is one. -/
def expandFrom : Bool → List Token → List Token
  | _, [] => []
  | signHere, t :: rest =>
      (if signHere && t == operator .minus then signTokens else [t]) ++ expandFrom t.precedesSign rest

/-! ### Splicing from the back is one pass -/

/-- The positions of the signs among tokens that follow another one, counted from `k`. -/
def signPositionsAfter (before : Token) (k : Nat) (tokens : List Token) : List Nat :=
  ((((before :: tokens).zip tokens)).zipIdx k).filterMap fun ((before, token), position) =>
    if isSignAfter before token then some position else none

theorem signPositionsAfter_cons (before t : Token) (k : Nat) (rest : List Token) :
    signPositionsAfter before k (t :: rest) =
      (if isSignAfter before t then [k] else []) ++ signPositionsAfter t (k + 1) rest := by
  simp only [signPositionsAfter, List.zip_cons_cons, List.zipIdx_cons, List.filterMap_cons]
  cases isSignAfter before t <;> rfl

theorem spliceSign_middle (front rest : List Token) (t : Token) :
    spliceSign front.length (front ++ t :: rest) = front ++ (signTokens ++ rest) := by
  simp [spliceSign]

theorem splice_from_back (before : Token) (front tokens : List Token) :
    (signPositionsAfter before front.length tokens).foldr spliceSign (front ++ tokens) =
      front ++ expandFrom before.precedesSign tokens := by
  induction tokens generalizing before front with
  | nil => simp [signPositionsAfter, expandFrom]
  | cons t rest ih =>
      -- The positions past `t` are spliced first; `t` then still stands where it was.
      have later : (signPositionsAfter t (front.length + 1) rest).foldr spliceSign (front ++ t :: rest) =
          front ++ t :: expandFrom t.precedesSign rest := by
        have := ih t (front ++ [t])
        simpa using this
      rw [signPositionsAfter_cons, List.foldr_append, later, expandFrom, isSignAfter, Bool.and_comm]
      cases before.precedesSign && t == operator .minus with
      | true => simpa using spliceSign_middle front (expandFrom t.precedesSign rest) t
      | false => simp

/-- Collecting the positions of all signs and splicing from the back is one pass from the front, in which a
    minus at the very front is no sign. -/
theorem expandSigns_eq (tokens : List Token) : expandSigns tokens = expandFrom false tokens := by
  cases tokens with
  | nil => rfl
  | cons t rest => exact splice_from_back t [t] rest

/-! ### Phrases are replaced on their own -/

/-- Written tokens become other tokens, whatever follows them. The flags say whether a minus is a sign in
    front of them and after them. -/
def Expands (signHere after : Bool) (written ts : List Token) : Prop :=
  ∀ rest, expandFrom signHere (written ++ rest) = ts ++ expandFrom after rest

namespace Expands

variable {signHere middle after : Bool} {written more ts us : List Token} {t : Token}

theorem nil (after : Bool) : Expands after after [] [] := by
  intro rest
  rfl

theorem append (head : Expands signHere middle written ts) (tail : Expands middle after more us) :
    Expands signHere after (written ++ more) (ts ++ us) := by
  intro rest
  rw [List.append_assoc, head, tail, List.append_assoc]

/-- A token other than a minus stays as it is. -/
theorem cons_of_ne (h : t ≠ operator .minus) (tail : Expands t.precedesSign after written ts) :
    Expands signHere after (t :: written) (t :: ts) := by
  intro rest
  have kept : (t == operator .minus) = false := by simpa using h
  rw [List.cons_append, expandFrom, kept, tail rest]
  simp

/-- Where a minus is no sign every token stays as it is. -/
theorem cons_of_not_sign (tail : Expands t.precedesSign after written ts) :
    Expands false after (t :: written) (t :: ts) := by
  intro rest
  rw [List.cons_append, expandFrom, tail rest]
  rfl

theorem sign (tail : Expands true after written ts) :
    Expands true after (operator .minus :: written) (signTokens ++ ts) := by
  intro rest
  rw [List.cons_append, expandFrom, show (operator .minus).precedesSign = true from rfl, tail rest]
  simp

/-- Two phrases with any token between them. -/
theorem join (head : Expands signHere false written ts) (tail : Expands t.precedesSign after more us) :
    Expands signHere after (written ++ t :: more) (ts ++ t :: us) :=
  head.append tail.cons_of_not_sign

/-- A phrase and a mark after it. -/
theorem close (head : Expands signHere false written ts) :
    Expands signHere t.precedesSign (written ++ [t]) (ts ++ [t]) :=
  head.join (.nil _)

/-- A phrase that is replaced by itself, whatever follows it, stays as it is when nothing does. -/
theorem stable (h : Expands signHere after ts ts) : expandFrom signHere ts = ts := by
  have whole := h []
  rwa [List.append_nil, expandFrom, List.append_nil] at whole

end Expands

/-! ### No sign is left -/

/-- No minus in the list is a sign. -/
def SignFree (tokens : List Token) : Prop :=
  tokens.IsChain fun before t => isSignAfter before t = false

/-- A token other than a minus parts what is replaced before it from what is replaced after it. -/
theorem expandFrom_append_cons {t : Token} (h : t ≠ operator .minus) (signHere : Bool)
    (front back : List Token) :
    expandFrom signHere (front ++ t :: back) =
      expandFrom signHere front ++ t :: expandFrom t.precedesSign back := by
  induction front generalizing signHere with
  | nil =>
      have kept : (t == operator .minus) = false := by simpa using h
      simp [expandFrom, kept]
  | cons u rest ih => rw [List.cons_append, expandFrom, ih, expandFrom, List.append_assoc]

theorem expandFrom_append_endOfLine (signHere : Bool) (tokens : List Token) :
    expandFrom signHere (tokens ++ [endOfLine]) = expandFrom signHere tokens ++ [endOfLine] :=
  expandFrom_append_cons (by simp) signHere tokens []

/-- What holds of the tokens of a sign and of every token before the replacement holds of every token
    after it. -/
theorem forall_mem_expandFrom {P : Token → Prop} (sign : ∀ t ∈ signTokens, P t) {tokens : List Token}
    (all : ∀ t ∈ tokens, P t) (signHere : Bool) : ∀ t ∈ expandFrom signHere tokens, P t := by
  induction tokens generalizing signHere with
  | nil => exact all
  | cons t rest ih =>
      rcases List.forall_mem_cons.1 all with ⟨first, others⟩
      rw [expandFrom]
      refine List.forall_mem_append.2 ⟨?_, ih others _⟩
      split
      · exact sign
      · exact List.forall_mem_singleton.2 first

/-- The tokens of a sign end with a multiplication, after which no minus is replaced; so a second sign in a
    row leaves none behind either. -/
theorem signFree_expandFrom {before : Token} {signHere : Bool}
    (h : before.precedesSign = true → signHere = true) (tokens : List Token) :
    SignFree (before :: expandFrom signHere tokens) := by
  induction tokens generalizing before signHere with
  | nil => exact List.isChain_singleton before
  | cons t rest ih =>
      rw [expandFrom]
      split
      case isTrue sign =>
        have product : SignFree (operator .times :: expandFrom t.precedesSign rest) :=
          ih (fun tight => by cases tight)
        have first : isSignAfter before openParen = false := rfl
        exact .cons_cons first (.cons_cons rfl (.cons_cons rfl (.cons_cons rfl (.cons_cons rfl
          (.cons_cons rfl product)))))
      case isFalse noSign =>
        have here : isSignAfter before t = false := by
          rw [isSignAfter]
          cases precedes : before.precedesSign with
          | false => exact Bool.and_false _
          | true =>
              rw [h precedes, Bool.true_and] at noSign
              rw [Bool.and_true]
              exact eq_false_of_ne_true noSign
        exact .cons_cons here (ih id)

/-- A list without signs stays as it is. -/
theorem SignFree.expandFrom_eq {before : Token} {tokens : List Token} (h : SignFree (before :: tokens)) :
    expandFrom before.precedesSign tokens = tokens := by
  induction tokens generalizing before with
  | nil => rfl
  | cons t rest ih =>
      rcases List.isChain_cons_cons.1 h with ⟨here, others⟩
      rw [expandFrom, ih others, Bool.and_comm]
      rw [isSignAfter] at here
      rw [here]
      rfl

/-! ### Sign by sign -/

theorem expandSigns_cons (t : Token) (rest : List Token) :
    expandSigns (t :: rest) = t :: expandFrom t.precedesSign rest := by
  rw [expandSigns_eq, expandFrom, Bool.false_and, if_neg Bool.false_ne_true, List.singleton_append]

theorem signFree_expandSigns (tokens : List Token) : SignFree (expandSigns tokens) := by
  cases tokens with
  | nil => exact List.isChain_nil
  | cons t rest =>
      rw [expandSigns_cons]
      exact signFree_expandFrom id rest

theorem SignFree.expandSigns_eq {tokens : List Token} (h : SignFree tokens) :
    expandSigns tokens = tokens := by
  cases tokens with
  | nil => rfl
  | cons t rest => rw [expandSigns_cons, h.expandFrom_eq]

/-- The token right before a place of a list. -/
def before? (tokens : List Token) : Nat → Option Token
  | 0 => none
  | place + 1 => tokens[place]?

/-- What the token at a place of a list becomes. The list is the one that was written, so what becomes of
    the other tokens is not asked. -/
def expansionAt (tokens : List Token) (t : Token) (place : Nat) : List Token :=
  if t = operator .minus ∧ (before? tokens place).any precedesSign = true then
    [openParen, number "0", operator .minus, number "1", closeParen, operator .times]
  else [t]

theorem expansionAt_eq (tokens : List Token) (t : Token) (place : Nat) :
    expansionAt tokens t place =
      if (before? tokens place).any precedesSign && t == operator .minus then signTokens else [t] := by
  simp only [expansionAt, signTokens, Bool.and_eq_true, beq_iff_eq, and_comm]

/-- The pass over the end of a list looks the token before each one up in the whole list. -/
theorem expandFrom_eq_flatMap (front tokens : List Token) :
    expandFrom ((before? (front ++ tokens) front.length).any precedesSign) tokens =
      (tokens.zipIdx front.length).flatMap fun (t, place) => expansionAt (front ++ tokens) t place := by
  induction tokens generalizing front with
  | nil => rfl
  | cons t rest ih =>
      have later := ih (front ++ [t])
      rw [List.append_assoc, List.singleton_append, List.length_append, List.length_singleton] at later
      have found : before? (front ++ t :: rest) (front.length + 1) = some t := by simp [before?]
      rw [found, Option.any_some] at later
      rw [expandFrom, later, List.zipIdx_cons, List.flatMap_cons, ← expansionAt_eq]

/-- Replacing the signs is one pass over the tokens as they were written: a minus right after a token that
    makes it a sign becomes six tokens, and every other token stays, in its place and order. No minus is a
    sign afterwards, so a second replacement changes nothing. -/
theorem signs_replaced_once (tokens : List Token) :
    expandSigns tokens = (tokens.zipIdx.flatMap fun (t, place) => expansionAt tokens t place) ∧
    (∀ place b t, (expandSigns tokens)[place]? = some b → (expandSigns tokens)[place + 1]? = some t →
      b.precedesSign = true → t ≠ operator .minus) ∧
    expandSigns (expandSigns tokens) = expandSigns tokens := by
  have signFree := signFree_expandSigns tokens
  refine ⟨?_, ?_, signFree.expandSigns_eq⟩
  · rw [expandSigns_eq]
    exact expandFrom_eq_flatMap [] tokens
  · intro place b t found next precedes isMinus
    obtain ⟨inside, rfl⟩ := List.getElem?_eq_some_iff.1 next
    obtain ⟨_, rfl⟩ := List.getElem?_eq_some_iff.1 found
    have kept := List.isChain_iff_getElem.1 signFree place inside
    rw [isSignAfter, isMinus, precedes] at kept
    cases kept

end Token

end Plotline

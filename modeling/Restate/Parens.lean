import Restate.Token
import Restate.Error

/-!
# Parentheses

Where a parenthesis is closed, and how tokens are separated outside all parentheses. Both count
depth over the tokens at hand only, so a closing parenthesis that nothing opened takes the depth
below zero.
-/

namespace Restate

/-- How far the token at which the depth falls back to zero lies ahead, counted from the first of
the tokens; `depth` is the depth before them. -/
def closingFrom (depth : Int) : List Token → Option Nat
  | [] => none
  | t :: ts =>
    if t.isPunct "(" then (closingFrom (depth + 1) ts).map (· + 1)
    else if t.isPunct ")" then
      if depth = 1 then some 0 else (closingFrom (depth - 1) ts).map (· + 1)
    else (closingFrom depth ts).map (· + 1)

/-- The index of the parenthesis that closes the one at `index`. -/
def matchingParen (tokens : List Token) (index : Nat) : Except Error Nat :=
  match closingFrom 0 (tokens.drop index) with
  | some n => .ok (index + n)
  | none => .error (.refuse .unbalancedParentheses)

/-- As `matchingParen`. An index below zero counts from the end, and from the last token the search
goes on at the first; nothing if it lies before the first token. -/
def matchingParenFrom? (tokens : List Token) (index : Int) : Option (Except Error Int) :=
  if 0 ≤ index then
    some ((matchingParen tokens index.toNat).map Int.ofNat)
  else if index.natAbs ≤ tokens.length then
    let around := tokens.drop (tokens.length - index.natAbs) ++ tokens
    some ((matchingParen around 0).map fun n => index + n)
  else none

/-- The parts with a token put at the front of the first. -/
def consFirst (t : Token) : List (List Token) → List (List Token)
  | [] => [[t]]
  | part :: parts => (t :: part) :: parts

/-- The parts between separators at depth zero; `depth` is the depth before the tokens. -/
def splitAtDepth (separator : Text) (depth : Int) : List Token → List (List Token)
  | [] => [[]]
  | t :: ts =>
    if t.isPunct "(" then consFirst t (splitAtDepth separator (depth + 1) ts)
    else if t.isPunct ")" then consFirst t (splitAtDepth separator (depth - 1) ts)
    else if depth = 0 ∧ t.isPunct separator then [] :: splitAtDepth separator depth ts
    else consFirst t (splitAtDepth separator depth ts)

/-- The parts between the separators that stand outside all parentheses. -/
def splitTopLevel (separator : Text) (tokens : List Token) : List (List Token) :=
  splitAtDepth separator 0 tokens

end Restate

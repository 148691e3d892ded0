import Restate.Fields
import Restate.Number.Numeral
import Restate.Token

/-!
# Parameters

String literals leave the statement: each becomes a named placeholder, numbered in order of
appearance, and its contents are bound under that name. Names that the statement itself uses are
skipped. A word that touches a literal may change its reading: `x` makes it bytes, which stay in the
statement; `b` makes it a number written in bits; `n` and words that begin with an underscore name a
character set and are dropped.
-/

namespace Restate

/-- How a word that touches a literal changes its reading. -/
inductive Introducer where
  | bytes
  | bits
  | charset
  deriving DecidableEq

namespace Introducer

/-- The reading a word in upper case asks for. -/
def ofUpper? (word : Text) : Option Introducer :=
  if word = ['X'] then some .bytes
  else if word = ['B'] then some .bits
  else if word = ['N'] ∨ word.head? = some '_' then some .charset
  else none

/-- The reading a token asks for, if the token after it is a literal that it touches. -/
def before? (t literal : Token) : Option Introducer :=
  if literal.kind = .string ∧ t.kind.isBare ∧ t.touches literal then ofUpper? t.upper else none

end Introducer

/-- The number a text of binary digits spells, as a decimal numeral; no digits spell zero. -/
def bitNumeral (digits : Text) : Except NumeralFault Text := do
  let n ← Numeral.integer 2 (if digits.isEmpty then ['0'] else digits)
  Numeral.written n

/-- A byte literal with its marker, as SQLite writes it. -/
def byteLiteral (marker literal : Token) : List Token :=
  [{ marker with text := ['X'] }, { literal with text := quoteString literal.value }]

namespace Parameter

/-- How parameters are named. -/
structure Naming where
  /-- What every generated name begins with. -/
  stem : Text
  /-- The names the statement already uses. -/
  taken : List Text
  /-- Whether the statement has placeholders without names. -/
  positional : Bool

def Naming.ofTokens (stem : Text) (tokens : List Token) : Naming where
  stem := stem
  taken := tokens.filterMap fun t =>
    match t.kind, t.text with
    | .placeholder, ':' :: name => some name
    | _, _ => none
  positional := tokens.any fun t => t.kind == .placeholder && t.text == ['?']

def Naming.name (naming : Naming) (n : Nat) : Text :=
  naming.stem ++ Text.numeral n

/-- The first number from `n` on whose name is not taken, tried at most the given number of times.
As many tries as there are names taken are enough. -/
def Naming.free (naming : Naming) (n : Nat) : Nat → Nat
  | 0 => n
  | tries + 1 => if naming.taken.contains (naming.name n) then naming.free (n + 1) tries else n

/-- The number for the next parameter. -/
def Naming.next (naming : Naming) (n : Nat) : Nat :=
  naming.free n naming.taken.length

/-- Tokens with placeholders in place of literals, and the values bound to them. -/
structure Bound where
  tokens : List Token
  params : Fields Text

def Bound.after (head : List Token) (bound : Bound) : Bound :=
  { bound with tokens := head ++ bound.tokens }

/-- A literal's placeholder and value in front. -/
def Bound.afterLiteral (start : Nat) (name : Text) (literal : Token) (bound : Bound) : Bound where
  tokens := ⟨.placeholder, ':' :: name, start, literal.stop⟩ :: bound.tokens
  params := (name, literal.value) :: bound.params

/-- Binds one literal to the next parameter, and what follows it to later ones. -/
def bindLiteral (naming : Naming) (n start : Nat) (literal : Token)
    (following : Nat → Except Error Bound) : Except Error Bound :=
  if naming.positional then .error (.refuse .positionalPlaceholders)
  else
    let number := naming.next n
    (following (number + 1)).map (Bound.afterLiteral start (naming.name number) literal)

/-- Binds the literals of a statement from the first token on; `n` is the least number that may
still be given. -/
def bindFrom (naming : Naming) (n : Nat) : List Token → Except Error Bound
  | [] => .ok ⟨[], []⟩
  | t :: ts =>
    if t.kind = .string then bindLiteral naming n t.start t fun n => bindFrom naming n ts
    else
      match ts with
      | [] => .ok ⟨[t], []⟩
      | u :: rest =>
        match Introducer.before? t u with
        | some .bytes => (bindFrom naming n rest).map (Bound.after (byteLiteral t u))
        | some .bits =>
          match bitNumeral u.value with
          | .error _ => .error (.refuse (.invalidBitLiteral u.text))
          | .ok text =>
            (bindFrom naming n rest).map (Bound.after [⟨.number, text, t.start, u.stop⟩])
        | some .charset => bindLiteral naming n t.start u fun n => bindFrom naming n rest
        | none => (bindFrom naming n (u :: rest)).map (Bound.after [t])

/-- Binds the literals of a statement to parameters whose names begin with `stem`. -/
def extract (stem : Text) (tokens : List Token) : Except Error Bound :=
  bindFrom (Naming.ofTokens stem tokens) 0 tokens

end Parameter

end Restate

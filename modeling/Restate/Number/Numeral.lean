import Restate.Number.Double
import Restate.Error
import Restate.Text.Blank
import Restate.Text.Digit

/-!
# Numerals in texts

Numbers given as text in settings and in bit literals: surrounding blanks, a sign, digits of any
script, and single underscores between digits. A numeral to base two may begin with `0b`.
-/

namespace Restate

namespace Numeral

open Text

/-- The blanks around a numeral. The information separators are none of them. -/
def isBlank (c : Char) : Bool :=
  if c.toNat < 128 then c == ' ' || (9 ≤ c.toNat && c.toNat ≤ 13) else Text.isBlank c

/-- The value of a digit to the base; the base is at most ten. -/
def digit? (base : Nat) (c : Char) : Option Nat :=
  (decimalValue? c).filter (· < base)

/-- The digits at the head of a text, with single underscores between them, and the rest. -/
def digitRun (base : Nat) : Text → List Nat × Text
  | [] => ([], [])
  | [c] =>
    match digit? base c with
    | some d => ([d], [])
    | none => ([], [c])
  | c :: e :: s =>
    match digit? base c with
    | none => ([], c :: e :: s)
    | some d =>
      if e = '_' then
        let (more, rest) := digitRun base s
        if more.isEmpty then ([d], e :: s) else (d :: more, rest)
      else
        let (more, rest) := digitRun base (e :: s)
        (d :: more, rest)

/-- The number the digits spell. -/
def ofDigits (base : Nat) (digits : List Nat) : Nat :=
  digits.foldl (fun n d => n * base + d) 0

/-- A sign, if there is one, and the rest. -/
def sign : Text → Bool × Text
  | '-' :: s => (true, s)
  | '+' :: s => (false, s)
  | s => (false, s)

/-- The text behind the mark of a binary numeral, which one underscore may follow. -/
def afterBinaryMark : Text → Text
  | z :: b :: s =>
    if digit? 2 z = some 0 ∧ (b = 'b' ∨ b = 'B') then
      match s with
      | '_' :: more => more
      | _ => s
    else z :: b :: s
  | s => s

/-- The value of an integer numeral to base two or ten. -/
def integer (base : Nat) (s : Text) : Except NumeralFault Int :=
  let (negative, body) := sign (s.dropWhile isBlank)
  let body := if base = 2 then afterBinaryMark body else body
  let (digits, rest) := digitRun base body
  if digits.isEmpty || rest.head? = some '_' then .error (.notInteger base s)
  else if base ≠ 2 ∧ NumeralFault.digitLimit < digits.length then
    .error (.tooLongToRead digits.length)
  else if rest.all isBlank then
    .ok (if negative then -(ofDigits base digits : Int) else ofDigits base digits)
  else .error (.notInteger base s)

/-- The decimal numeral of an integer, unless it has too many digits. -/
def written (n : Int) : Except NumeralFault Text :=
  if NumeralFault.digitLimit < (numeral n.natAbs).length then .error .tooLongToWrite
  else .ok (signedNumeral n)

/-- The exponent at the head of a text and the rest; nothing if an `e` has no digits. -/
def exponentPart : Text → Option (Int × Text)
  | e :: s =>
    if e = 'e' ∨ e = 'E' then
      let (negative, body) := sign s
      let (digits, rest) := digitRun 10 body
      if digits.isEmpty then none
      else some (if negative then -(ofDigits 10 digits : Int) else ofDigits 10 digits, rest)
    else some (0, e :: s)
  | [] => some (0, [])

/-- A decimal number without its sign, and the rest: digits with an optional point among, before or
after them, and an optional exponent. -/
def decimalPart (negative : Bool) (s : Text) : Option (Double × Text) :=
  let (whole, rest) := digitRun 10 s
  let (fraction, rest) :=
    match rest with
    | '.' :: more => digitRun 10 more
    | _ => ([], rest)
  if whole.isEmpty && fraction.isEmpty then none
  else
    (exponentPart rest).map fun (power, rest) =>
      (Double.ofDecimal negative (ofDigits 10 (whole ++ fraction))
        (power - (fraction.length : Int)), rest)

/-- The words for infinity and for what is no number, in any case. -/
def wordPart (negative : Bool) (s : Text) : Option Double :=
  let word := s.map Char.toLower
  if word = "inf".toList ∨ word = "infinity".toList then some (.infinite negative)
  else if word = "nan".toList then some .nan
  else none

/-- The value of a decimal number in a text. -/
def decimal (s : Text) : Except NumeralFault Double :=
  let inner := ((s.dropWhile isBlank).reverse.dropWhile isBlank).reverse
  let (negative, body) := sign inner
  match wordPart negative body with
  | some d => .ok d
  | none =>
    match decimalPart negative body with
    | some (d, []) => .ok d
    | _ => .error (.notNumber s)

end Numeral

end Restate

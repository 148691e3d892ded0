import Restate.Text.Basic

/-!
# Floating-point numbers

Numbers of 64 bits as exact data: a sign, a whole mantissa and a power of two. A decimal is read as
the nearest such number, and a number is written with the fewest digits that read back as the same
number, all in exact arithmetic on natural numbers.
-/

namespace Restate

/-- A floating-point number of 64 bits. The value of a finite one is `± mantissa · 2 ^ exponent`. -/
inductive Double where
  | finite (negative : Bool) (mantissa : Nat) (exponent : Int)
  | infinite (negative : Bool)
  | nan
  deriving DecidableEq, Repr

namespace Double

/-- A power of two. -/
def two (n : Nat) : Nat :=
  Nat.pow 2 n

/-- A power of ten. -/
def ten (n : Nat) : Nat :=
  Nat.pow 10 n

/-- The quotient rounded to the nearest whole number, a half to the even neighbour. -/
def roundDiv (num den : Nat) : Nat :=
  let q := num / den
  let r := num % den
  if 2 * r < den then q
  else if den < 2 * r then q + 1
  else if q % 2 = 0 then q else q + 1

/-- The quotient of `num · 2 ^ (-exponent)` and `den`, rounded. -/
def scaledRound (num den : Nat) (exponent : Int) : Nat :=
  if exponent < 0 then roundDiv (num * two exponent.natAbs) den
  else roundDiv num (den * two exponent.natAbs)

/-- The power of two of the last mantissa bit of a number near `num / den`: such that the mantissa
has 53 bits, but never below the least one. -/
def lastBit (num den : Nat) : Int :=
  let guess : Int := (Nat.log2 num : Int) - (Nat.log2 den : Int) - 53
  let exponent := if scaledRound num den guess < two 53 then guess else guess + 1
  max exponent (-1074)

/-- The nearest number to `± num / den`; beyond the greatest finite number lies infinity. -/
def ofRatio (negative : Bool) (num den : Nat) : Double :=
  if num = 0 then .finite negative 0 (-1074)
  else
    let exponent := lastBit num den
    let mantissa := scaledRound num den exponent
    let (mantissa, exponent) :=
      if mantissa = two 53 then (two 52, exponent + 1) else (mantissa, exponent)
    if 971 < exponent then .infinite negative else .finite negative mantissa exponent

/-- The nearest number to `± digits · 10 ^ power`. Powers far out of range are decided without
computing them. -/
def ofDecimal (negative : Bool) (digits : Nat) (power : Int) : Double :=
  if digits = 0 then .finite negative 0 (-1074)
  else
    let magnitude : Int := power + (numeralLength digits : Int)
    if 400 < magnitude then .infinite negative
    else if magnitude < -400 then .finite negative 0 (-1074)
    else if power < 0 then ofRatio negative digits (ten power.natAbs)
    else ofRatio negative (digits * ten power.natAbs) 1
where
  numeralLength (n : Nat) : Nat := (Text.numeral n).length

/-- The nearest number to an integer; nothing if the integer is out of range. -/
def ofInt? (n : Int) : Option Double :=
  match ofRatio (n < 0) n.natAbs 1 with
  | .infinite _ => none
  | d => some d

/-- The whole part, rounded toward zero; nothing for infinity and for what is no number. -/
def truncate? : Double → Option Int
  | .finite negative mantissa exponent =>
    let whole :=
      if exponent < 0 then mantissa / two exponent.natAbs else mantissa * two exponent.natAbs
    some (if negative then -(whole : Int) else whole)
  | _ => none

/-- A positive finite number as a quotient. -/
def ratio (mantissa : Nat) (exponent : Int) : Nat × Nat :=
  if exponent < 0 then (mantissa, two exponent.natAbs) else (mantissa * two exponent.natAbs, 1)

/-- The place of the point: the least `p` with `num / den < 10 ^ p`, found from a first guess that
lies below it. -/
def pointPlace (num den : Nat) : Int :=
  let guess := ((Nat.log2 num : Int) - (Nat.log2 den : Int)) * 3 / 10 - 2
  climb guess 6
where
  /-- Climbs from a guess, in at most the given number of steps. -/
  climb (p : Int) : Nat → Int
    | 0 => p
    | steps + 1 => if below p then p else climb (p + 1) steps
  /-- Whether the number lies below `10 ^ p`. -/
  below (p : Int) : Bool :=
    if p < 0 then num * ten p.natAbs < den else num < den * ten p.natAbs

/-- The two neighbours of a number on the grid of multiples of `10 ^ power`. -/
def neighbours (num den : Nat) (power : Int) : Nat × Nat :=
  let q :=
    if power < 0 then num * ten power.natAbs / den else num / (den * ten power.natAbs)
  (q, q + 1)

/-- Whether the upper of the two neighbours is the nearer one; a tie goes to the even one. -/
def upperNearer (num den : Nat) (power : Int) : Bool :=
  let q := (neighbours num den power).1
  let r := if power < 0 then roundDiv (num * ten power.natAbs) den
    else roundDiv num (den * ten power.natAbs)
  r != q

/-- The shortest decimal that reads back as the number: its digits, as a whole number, and the power
of ten of the last one. Tried are grids of one, two, … digits. -/
def shortest (mantissa : Nat) (exponent : Int) : Nat × Int :=
  let (num, den) := ratio mantissa exponent
  let place := pointPlace num den
  search num den place 1 17
where
  /-- Tries grids from the given number of digits on, at most the given number of them. -/
  search (num den : Nat) (place : Int) (digits : Nat) : Nat → Nat × Int
    | 0 => ((neighbours num den (place - 17)).1, place - 17)
    | more + 1 =>
      let power := place - (digits : Int)
      let (low, high) := neighbours num den power
      match back low power, back high power with
      | true, true => (if upperNearer num den power then high else low, power)
      | true, false => (low, power)
      | false, true => (high, power)
      | false, false => search num den place (digits + 1) more
  /-- Whether a decimal reads back as the number. -/
  back (d : Nat) (power : Int) : Bool :=
    ofDecimal false d power == .finite false mantissa exponent

/-- The exponent as it is written: a sign and at least two digits. -/
def exponentText (e : Int) : Text :=
  let digits := Text.numeral e.natAbs
  (if e < 0 then ['-'] else ['+']) ++ List.replicate (2 - digits.length) '0' ++ digits

/-- A positive decimal as text. It is written positionally, with at least one digit after the point,
where the point falls between the fourth place before the digits and the sixteenth after them, and
with an exponent elsewhere. -/
def decimalText (digits : Nat) (power : Int) : Text :=
  let ds := Text.numeral digits
  let point : Int := power + (ds.length : Int)
  if -4 < point ∧ point ≤ 16 then
    if point ≤ 0 then ['0', '.'] ++ List.replicate point.natAbs '0' ++ ds
    else if ds.length ≤ point.natAbs then
      ds ++ List.replicate (point.natAbs - ds.length) '0' ++ ['.', '0']
    else ds.take point.natAbs ++ ['.'] ++ ds.drop point.natAbs
  else
    let fraction := ds.drop 1
    ds.take 1 ++ (if fraction.isEmpty then [] else '.' :: fraction) ++ ['e']
      ++ exponentText (point - 1)

/-- The digits without the zeros at their end. -/
def trimZeros (digits : Nat) (power : Int) : Nat → Nat × Int
  | 0 => (digits, power)
  | steps + 1 =>
    if digits % 10 = 0 then trimZeros (digits / 10) (power + 1) steps else (digits, power)

/-- A number as text, given the words for infinity and for what is no number. -/
def text (infinity noNumber : Text) : Double → Text
  | .nan => noNumber
  | .infinite negative => (if negative then ['-'] else []) ++ infinity
  | .finite negative mantissa exponent =>
    let body :=
      if mantissa = 0 then "0.0".toList
      else
        let (digits, power) := shortest mantissa exponent
        let (digits, power) := trimZeros digits power 20
        decimalText digits power
    (if negative then ['-'] else []) ++ body

end Double

end Restate

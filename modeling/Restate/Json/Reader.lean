import Restate.Json.Writer
import Restate.Number.Numeral
import Restate.Text.Digit
import Restate.Text.Surrogate

/-!
# Reading JSON

A reader of one whole JSON text. It also takes `NaN`, `Infinity` and `-Infinity`; of several values
under one key the last counts, at the place of the first. Whole numbers are bounded in length. A
surrogate that is escaped alone is kept as the character that stands for it.
-/

namespace Restate

namespace Json

open Text

/-- Space, tab and line ends. -/
def isGap (c : Char) : Bool :=
  c == ' ' || c == '\t' || c == '\n' || c == '\r'

/-- The text behind the blanks at its head. -/
def skipGap (s : Text) : Text :=
  s.dropWhile isGap

/-- The text behind a given beginning. -/
def behind? (head s : Text) : Option Text :=
  if head.isPrefixOf s then some (s.drop head.length) else none

def hexValue? (c : Char) : Option Nat :=
  if c.isDigit then some (c.toNat - '0'.toNat)
  else if 'a' ≤ c && c ≤ 'f' then some (c.toNat - 'a'.toNat + 10)
  else if 'A' ≤ c && c ≤ 'F' then some (c.toNat - 'A'.toNat + 10)
  else none

/-- The number four hexadecimal digits spell, and the rest. -/
def hexFour? : Text → Option (Nat × Text)
  | a :: b :: c :: d :: s => do
    let a ← hexValue? a
    let b ← hexValue? b
    let c ← hexValue? c
    let d ← hexValue? d
    return (((a * 16 + b) * 16 + c) * 16 + d, s)
  | _ => none

/-- What a letter behind a backslash stands for. -/
def escaped? (c : Char) : Option Char :=
  if c = '"' ∨ c = '\\' ∨ c = '/' then some c
  else if c = 'b' then some '\x08'
  else if c = 'f' then some '\x0c'
  else if c = 'n' then some '\n'
  else if c = 'r' then some '\r'
  else if c = 't' then some '\t'
  else none

/-- The character of a numeric escape, and the rest. Two escapes may make up one character. -/
def unicodeEscape? (standIns : StandIns) (s : Text) : Option (Char × Text) := do
  let (high, rest) ← hexFour? s
  if 0xD800 ≤ high && high < 0xDC00 then
    match (behind? ['\\', 'u'] rest).bind hexFour? with
    | some (low, more) =>
      if 0xDC00 ≤ low && low < 0xE000 then
        return (Char.ofNat (0x10000 + (high - 0xD800) * 0x400 + (low - 0xDC00)), more)
      else return (standIns.char high, rest)
    | none => return (standIns.char high, rest)
  else return (standIns.charOf high, rest)

/-- The contents of a string behind its opening quote, and the rest behind the closing one. At most
`fuel` characters are read. -/
def stringBody (standIns : StandIns) (fuel : Nat) (s : Text) : Option (Text × Text) :=
  match fuel, s with
  | 0, _ => none
  | _, [] => none
  | fuel + 1, c :: s =>
    if c = '"' then some ([], s)
    else if c = '\\' then
      match s with
      | [] => none
      | e :: more =>
        if e = 'u' then do
          let (d, rest) ← unicodeEscape? standIns more
          let (body, rest) ← stringBody standIns fuel rest
          return (d :: body, rest)
        else do
          let d ← escaped? e
          let (body, rest) ← stringBody standIns fuel more
          return (d :: body, rest)
    else if c.toNat < 0x20 then none
    else do
      let (body, rest) ← stringBody standIns fuel s
      return (c :: body, rest)

/-- A string behind its opening quote, and the rest behind the closing one. -/
def string? (standIns : StandIns) (s : Text) : Option (Text × Text) :=
  stringBody standIns (s.length + 1) s

/-- A whole number without needless zeros at its head. -/
def wholeDigits? (s : Text) : Option (Text × Text) :=
  let digits := s.takeWhile Char.isDigit
  match digits with
  | [] => none
  | '0' :: _ => some (['0'], s.drop 1)
  | _ => some (digits, s.dropWhile Char.isDigit)

/-- The digits behind a point, if both are there. -/
def fractionDigits (s : Text) : Text × Text :=
  match s with
  | '.' :: more =>
    let digits := more.takeWhile Char.isDigit
    if digits.isEmpty then ([], s) else (digits, more.dropWhile Char.isDigit)
  | _ => ([], s)

/-- The exponent, if its digits are there. -/
def exponent? (s : Text) : Option (Int × Text) :=
  match s with
  | e :: more =>
    if e = 'e' ∨ e = 'E' then
      let (negative, body) := Numeral.sign more
      let digits := body.takeWhile Char.isDigit
      if digits.isEmpty then none
      else
        let power : Int := natural digits
        some (if negative then -power else power, body.dropWhile Char.isDigit)
    else none
  | [] => none
where
  /-- The number decimal digits spell. -/
  natural (digits : Text) : Nat :=
    digits.foldl (fun n c => n * 10 + (c.toNat - '0'.toNat)) 0

def number? (s : Text) : Option (Json × Text) := do
  let (negative, body) := match s with
    | '-' :: more => (true, more)
    | _ => (false, s)
  let (whole, rest) ← wholeDigits? body
  let (fraction, rest) := fractionDigits rest
  let spelled := exponent?.natural (whole ++ fraction)
  match exponent? rest with
  | some (power, rest) =>
    return (.float (Double.ofDecimal negative spelled (power - (fraction.length : Int))), rest)
  | none =>
    if fraction.isEmpty then
      if NumeralFault.digitLimit < whole.length then none
      else return (.int (if negative then -(spelled : Int) else spelled), rest)
    else
      return (.float (Double.ofDecimal negative spelled (-(fraction.length : Int))), rest)

/-- A value that is one word. -/
def word? (s : Text) : Option (Json × Text) :=
  ((behind? "null" s).map (Json.null, ·))
  <|> ((behind? "true" s).map (Json.bool true, ·))
  <|> ((behind? "false" s).map (Json.bool false, ·))
  <|> ((behind? "NaN" s).map (Json.float .nan, ·))
  <|> ((behind? "Infinity" s).map (Json.float (.infinite false), ·))
  <|> ((behind? "-Infinity" s).map (Json.float (.infinite true), ·))

mutual

/-- A value at the head of a text, and the rest. Every call reads a character or ends, so the length
of the text bounds the depth of the calls. -/
def value? (standIns : StandIns) (fuel : Nat) (s : Text) : Option (Json × Text) :=
  match fuel with
  | 0 => none
  | fuel + 1 =>
    match s with
    | '"' :: s => (string? standIns s).map fun (text, rest) => (.str text, rest)
    | '[' :: s =>
      match skipGap s with
      | ']' :: rest => some (.arr [], rest)
      | s => (items? standIns fuel s).map fun (items, rest) => (.arr items, rest)
    | '\x7b' :: s =>
      match skipGap s with
      | '\x7d' :: rest => some (.obj [], rest)
      | s => (members? standIns fuel s).map fun (members, rest) =>
        (.obj (Fields.ofEntries members), rest)
    | s => word? s <|> number? s

/-- The items of an array from the first one on, through the closing bracket. -/
def items? (standIns : StandIns) (fuel : Nat) (s : Text) : Option (List Json × Text) :=
  match fuel with
  | 0 => none
  | fuel + 1 => do
    let (item, rest) ← value? standIns fuel s
    match skipGap rest with
    | ']' :: rest => return ([item], rest)
    | ',' :: rest =>
      let (more, rest) ← items? standIns fuel (skipGap rest)
      return (item :: more, rest)
    | _ => none

/-- The members of an object from the first key on, through the closing brace. -/
def members? (standIns : StandIns) (fuel : Nat) (s : Text) :
    Option (List (Text × Json) × Text) :=
  match fuel with
  | 0 => none
  | fuel + 1 => do
    let '"' :: s := s | none
    let (key, rest) ← string? standIns s
    let ':' :: rest := skipGap rest | none
    let (value, rest) ← value? standIns fuel (skipGap rest)
    match skipGap rest with
    | '\x7d' :: rest => return ([(key, value)], rest)
    | ',' :: rest =>
      let (more, rest) ← members? standIns fuel (skipGap rest)
      return ((key, value) :: more, rest)
    | _ => none

end

/-- The value a text spells, with blanks around it allowed. -/
def readWith? (standIns : StandIns) (s : Text) : Option Json := do
  let s := skipGap s
  let (value, rest) ← value? standIns (2 * s.length + 2) s
  if (skipGap rest).isEmpty then return value else none

/-- Whether no character of the value that a text spells is one of those that are to stand for lone
surrogates. The value is read with others. -/
def isFree (standIns : StandIns) (s : Text) : Bool :=
  match readWith? standIns.other s with
  | some value => (value.write .readable).all fun c => !standIns.stands c
  | none => true

/-- Characters for the lone surrogates of a value that are met neither in it nor beside it. -/
def standInsFor (s beside : Text) : StandIns :=
  .choose fun standIns => beside.all (fun c => !standIns.stands c) && isFree standIns s

/-- The value a text spells, read by itself. -/
def parse? (s : Text) : Option Json :=
  readWith? (standInsFor s []) s

end Json

end Restate

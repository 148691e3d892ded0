import Restate.Text.Printable

/-!
# Displayed texts

A text in a message is shown between quotes, with everything that would not be seen written as an
escape, so that two different texts are never shown alike. Single quotes are used, unless the text
holds a single quote and no double quote.
-/

namespace Restate.Text

/-- The hexadecimal numeral of `n` in small letters, padded with zeros to `width` digits. -/
def hexPadded (width n : Nat) : Text :=
  let digits := Nat.toDigits 16 n
  List.replicate (width - digits.length) '0' ++ digits

/-- One character as it is shown between quotes of the given kind. -/
def shownChar (quote c : Char) : Text :=
  if c = quote ∨ c = '\\' then ['\\', c]
  else if c = '\n' then ['\\', 'n']
  else if c = '\r' then ['\\', 'r']
  else if c = '\t' then ['\\', 't']
  else if isPrintable c then [c]
  else if c.toNat < 0x100 then ['\\', 'x'] ++ hexPadded 2 c.toNat
  else if c.toNat < 0x10000 then ['\\', 'u'] ++ hexPadded 4 c.toNat
  else ['\\', 'U'] ++ hexPadded 8 c.toNat

/-- The quote a text is shown between. -/
def shownQuote (s : Text) : Char :=
  if s.contains '\x27' && !s.contains '"' then '"' else '\x27'

/-- A text as messages show it. -/
def shown (s : Text) : Text :=
  let quote := shownQuote s
  [quote] ++ s.flatMap (shownChar quote) ++ [quote]

end Restate.Text

import Restate.Json.Basic
import Restate.Text.Quoted

/-!
# Writing JSON

Two forms: one line, with a choice of separators, and one item a line with two blanks of
indentation. Strings escape the quote, the backslash and control characters, and everything beyond
ASCII where plain ASCII is asked for.
-/

namespace Restate

namespace Json

open Text

/-- How JSON is written on one line. -/
structure Style where
  /-- Between two items. -/
  separator : Text
  /-- Between a key and its value. -/
  colon : Text
  /-- Whether characters beyond ASCII are escaped. -/
  ascii : Bool

/-- No blanks, ASCII only. -/
def Style.compact : Style := ⟨",", ":", true⟩

/-- A blank behind commas and colons, ASCII only. -/
def Style.spaced : Style := ⟨", ", ": ", true⟩

/-- A blank behind commas and colons, all characters as themselves. -/
def Style.readable : Style := ⟨", ", ": ", false⟩

/-- The escape of a code unit of 16 bits. -/
def unitEscape (n : Nat) : Text :=
  ['\\', 'u'] ++ hexPadded 4 n

/-- One character inside a string. -/
def charText (ascii : Bool) (c : Char) : Text :=
  if c = '"' ∨ c = '\\' then ['\\', c]
  else if c = '\n' then ['\\', 'n']
  else if c = '\r' then ['\\', 'r']
  else if c = '\t' then ['\\', 't']
  else if c = '\x0c' then ['\\', 'f']
  else if c = '\x08' then ['\\', 'b']
  else if c.toNat < 0x20 then unitEscape c.toNat
  else if !ascii || c.toNat < 0x7f then [c]
  else if c.toNat < 0x10000 then unitEscape c.toNat
  else
    let n := c.toNat - 0x10000
    unitEscape (0xD800 + n / 0x400) ++ unitEscape (0xDC00 + n % 0x400)

def stringText (ascii : Bool) (s : Text) : Text :=
  ['"'] ++ s.flatMap (charText ascii) ++ ['"']

mutual

/-- A value on one line. -/
def write (style : Style) : Json → Text
  | .null => "null"
  | .bool true => "true"
  | .bool false => "false"
  | .int n => signedNumeral n
  | .float d => d.text "Infinity" "NaN"
  | .str s => stringText style.ascii s
  | .arr items => ['['] ++ List.intercalate style.separator (writeItems style items) ++ [']']
  | .obj fields =>
    ['\x7b'] ++ List.intercalate style.separator (writeFields style fields) ++ ['\x7d']

def writeItems (style : Style) : List Json → List Text
  | [] => []
  | item :: items => write style item :: writeItems style items

def writeFields (style : Style) : List (Text × Json) → List Text
  | [] => []
  | (key, value) :: fields =>
    (stringText style.ascii key ++ style.colon ++ write style value) :: writeFields style fields

end

/-- A line end and the indentation of the given depth. -/
def newLine (depth : Nat) : Text :=
  '\n' :: List.replicate (2 * depth) ' '

/-- Items between brackets, each on a line of its own. -/
def block (opening closing : Char) (depth : Nat) (items : List Text) : Text :=
  if items.isEmpty then [opening, closing]
  else
    [opening] ++ newLine (depth + 1)
      ++ List.intercalate (',' :: newLine (depth + 1)) items
      ++ newLine depth ++ [closing]

mutual

/-- A value with its items on lines of their own, in ASCII. -/
def writeIndented (depth : Nat) : Json → Text
  | .arr items => block '[' ']' depth (indentedItems (depth + 1) items)
  | .obj fields => block '\x7b' '\x7d' depth (indentedFields (depth + 1) fields)
  | value => write .compact value

def indentedItems (depth : Nat) : List Json → List Text
  | [] => []
  | item :: items => writeIndented depth item :: indentedItems depth items

def indentedFields (depth : Nat) : List (Text × Json) → List Text
  | [] => []
  | (key, value) :: fields =>
    (stringText true key ++ ": " ++ writeIndented depth value) :: indentedFields depth fields

end

mutual

/-- A value as it is shown inside messages and statements: words with a capital, strings within
containers between quotes. -/
def shown : Json → Text
  | .null => "None"
  | .bool true => "True"
  | .bool false => "False"
  | .int n => signedNumeral n
  | .float d => d.text "inf" "nan"
  | .str s => Text.shown s
  | .arr items => ['['] ++ List.intercalate [',', ' '] (shownItems items) ++ [']']
  | .obj fields => ['\x7b'] ++ List.intercalate [',', ' '] (shownFields fields) ++ ['\x7d']

def shownItems : List Json → List Text
  | [] => []
  | item :: items => shown item :: shownItems items

def shownFields : List (Text × Json) → List Text
  | [] => []
  | (key, value) :: fields =>
    (Text.shown key ++ [':', ' '] ++ shown value) :: shownFields fields

end

/-- A value inserted into a text: a string as itself, anything else as it is shown. -/
def inserted : Json → Text
  | .str s => s
  | value => value.shown

end Json

end Restate

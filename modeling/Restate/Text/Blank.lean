import Restate.Text.Basic

/-!
# Blank characters

The blanks are the white space of Unicode 14 together with the four information separators. They
end words, fill the gaps between tokens, and are stripped from the ends of a statement.
-/

namespace Restate.Text

/-- Where the blank characters begin and end. -/
def blankSteps : List Nat :=
  [
    9, 14, 28, 33, 133, 134, 160, 161, 5760, 5761, 8192, 8203, 8232, 8234, 8239, 8240, 8287, 8288,
    12288, 12289]

/-- White space of any script, tabs and line ends included. -/
def isBlank (c : Char) : Bool :=
  Steps.contains blankSteps c.toNat

/-- The text without the blanks at its two ends. -/
def strip (s : Text) : Text :=
  ((s.dropWhile isBlank).reverse.dropWhile isBlank).reverse

/-- The words of a text: what stands between its blanks. -/
def words (s : Text) : List Text :=
  (pieces ' ' (s.map fun c => if isBlank c then ' ' else c)).filter (!·.isEmpty)

end Restate.Text

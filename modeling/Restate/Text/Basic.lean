/-!
# Text

SQL is read and written as the list of its characters. Offsets therefore count code points, and
every reader is a recursion on the text itself.

Classes of characters that need a table are given by *steps*: the sorted code points at which
membership changes, beginning outside the class.
-/

namespace Restate

/-- A text is the list of its characters. -/
abbrev Text := List Char

/-- A string literal may be written where a text is meant. -/
instance : Coe String Text := ⟨String.toList⟩

namespace Text

/-- The decimal numeral of a natural number. -/
def numeral (n : Nat) : Text :=
  Nat.toDigits 10 n

/-- The decimal numeral of an integer, with a minus sign where it is negative. -/
def signedNumeral (n : Int) : Text :=
  if n < 0 then '-' :: numeral n.natAbs else numeral n.natAbs

/-- The text with every `c` written twice. -/
def doubled (c : Char) (s : Text) : Text :=
  s.flatMap fun d => if d = c then [c, c] else [d]

/-- The text with every pair of neighbouring `c`, taken from the left, written once. -/
def halved (c : Char) : Text → Text
  | [] => []
  | [d] => [d]
  | d :: e :: s => if d = c ∧ e = c then c :: halved c s else d :: halved c (e :: s)

/-- Whether `part` stands somewhere in a text, or in a list of texts. -/
def holds {α : Type} [BEq α] (part : List α) : List α → Bool
  | [] => part.isEmpty
  | c :: s => part.isPrefixOf (c :: s) || holds part s

/-- The pieces between the occurrences of `mark`; a text without one is its own only piece. -/
def pieces (mark : Char) : Text → List Text
  | [] => [[]]
  | c :: s =>
    match pieces mark s with
    | [] => [[c]]
    | p :: ps => if c = mark then [] :: p :: ps else (c :: p) :: ps

/-- The text with every line end, of whatever kind, a newline. -/
def unifyLineEnds : Text → Text
  | [] => []
  | ['\r'] => ['\n']
  | '\r' :: d :: s => if d = '\n' then '\n' :: unifyLineEnds s else '\n' :: unifyLineEnds (d :: s)
  | c :: s => c :: unifyLineEnds s

/-- Doubling and halving undo each other. -/
theorem halved_doubled (c : Char) (s : Text) : halved c (doubled c s) = s := by
  induction s with
  | nil => rfl
  | cons d s ih =>
    by_cases hd : d = c
    · subst hd
      have : doubled d (d :: s) = d :: d :: doubled d s := by simp [doubled]
      rw [this, halved, if_pos ⟨rfl, rfl⟩, ih]
    · have : doubled c (d :: s) = d :: doubled c s := by simp [doubled, hd]
      rw [this]
      cases hs : doubled c s with
      | nil =>
        rw [hs] at ih
        rw [← ih]
        rfl
      | cons e r =>
        rw [halved, if_neg (fun h => hd h.1), ← hs, ih]

end Text

namespace Steps

/-- Whether a code point is in the class given by its steps. -/
def contains : List Nat → Nat → Bool
  | [], _ => false
  | step :: steps, n => if n < step then false else !contains steps n

/-- The step at which the stretch around a member begins. -/
def start? : List Nat → Nat → Option Nat
  | first :: stop :: steps, n =>
    if n < first then none else if n < stop then some first else start? steps n
  | _, _ => none

end Steps

end Restate

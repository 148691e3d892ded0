import Restate.Text.Quoted

/-!
# Lone surrogates

An escape may name one half of a surrogate pair without the other. That is no character, but a text
may hold it, and it is only when the text is written to a file that it cannot be encoded. Here a
private character stands for each such half, out of a block of characters that are met nowhere else.
-/

namespace Restate

/-- The characters that stand for lone surrogates: a block of the two private planes, if one is
free. -/
structure StandIns where
  block : Option (Fin 64)
  deriving DecidableEq

namespace StandIns

/-- The code of the first character of a block. There are as many characters in it as surrogates. -/
def start (block : Fin 64) : Nat :=
  0xF0000 + 0x800 * block.val

/-- The character that stands for a surrogate. -/
def char (standIns : StandIns) (surrogate : Nat) : Char :=
  match standIns.block with
  | some block => Char.ofNat (start block + (surrogate - 0xD800))
  | none => '\uFFFD'

/-- The character with a code, or the one that stands for it. -/
def charOf (standIns : StandIns) (code : Nat) : Char :=
  if 0xD800 ≤ code && code < 0xE000 then standIns.char code else Char.ofNat code

/-- The surrogate for which a character stands. -/
def surrogate? (standIns : StandIns) (c : Char) : Option Nat :=
  standIns.block.bind fun block =>
    if start block ≤ c.toNat && c.toNat < start block + 0x800 then
      some (0xD800 + (c.toNat - start block))
    else none

def stands (standIns : StandIns) (c : Char) : Bool :=
  (standIns.surrogate? c).isSome

/-- The first block that is free, if one is. -/
def choose (isFree : StandIns → Bool) : StandIns :=
  (((List.finRange 64).map fun block => ⟨some block⟩).find? isFree).getD ⟨none⟩

/-- Another block. -/
def other (standIns : StandIns) : StandIns :=
  ⟨standIns.block.map (· + 1)⟩

end StandIns

/-- Why a text cannot be encoded: the first surrogate in it, its place, and how many follow one
another from there on. -/
structure EncodingFault where
  surrogate : Nat
  position : Nat
  count : Nat
  deriving DecidableEq, Repr

namespace EncodingFault

def message (fault : EncodingFault) : Text :=
  "'utf-8' codec can't encode character".toList
    ++ (if fault.count = 1 then
        " '\\u".toList ++ Text.hexPadded 4 fault.surrogate ++ "' in position "
          ++ Text.numeral fault.position
      else
        "s in position ".toList ++ Text.numeral fault.position ++ "-"
          ++ Text.numeral (fault.position + fault.count - 1))
    ++ ": surrogates not allowed"

end EncodingFault

namespace StandIns

/-- Why a text cannot be encoded, if it cannot. -/
def fault? (standIns : StandIns) (text : Text) : Option EncodingFault :=
  let before := text.takeWhile fun c => !standIns.stands c
  let run := (text.drop before.length).takeWhile standIns.stands
  (run.head?.bind standIns.surrogate?).map fun surrogate => ⟨surrogate, before.length, run.length⟩

/-- What becomes of texts that are written to a file one after another: all of them, or those before
the first that cannot be encoded, with why that one cannot. -/
def encoded (standIns : StandIns) : List Text → Text × Option EncodingFault
  | [] => ([], none)
  | text :: more =>
    match standIns.fault? text with
    | some fault => ([], some fault)
    | none =>
      let (written, fault) := standIns.encoded more
      (text ++ written, fault)

end StandIns

end Restate

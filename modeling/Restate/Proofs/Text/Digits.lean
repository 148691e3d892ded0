import Mathlib.Data.List.Chain
import Restate.Text.Alnum

/-!
# Digits in names

A class given by its steps lies in another one if each of its stretches lies in a stretch of the
other, which one walk along both shows. Main statements: the decimal digits and the digit signs of
every script may stand in a name (`isNameChar_of_isDecimal`, `isNameChar_of_isDigitSign`).
-/

namespace Restate

namespace Steps

/-- The steps without the leading stretches that lie between two code points. -/
def dropInside (start stop : Nat) : List Nat → List Nat
  | first :: last :: steps =>
    if start ≤ first ∧ last ≤ stop then dropInside start stop steps else first :: last :: steps
  | steps => steps

/-- Whether every stretch of the first class lies in a stretch of the second one. -/
def within (inner : List Nat) : List Nat → Bool
  | start :: stop :: outer => within (dropInside start stop inner) outer
  | _ => inner.isEmpty

variable {inner outer : List Nat} {n start stop : Nat}

theorem contains_cons_cons (start stop n : Nat) (steps : List Nat) :
    contains (start :: stop :: steps) n =
      if n < start then false else if n < stop then true else contains steps n := by
  simp only [contains]
  split
  · rfl
  · split
    · rfl
    · rw [Bool.not_not]

theorem contains_dropInside (h : contains inner n = true) :
    (start ≤ n ∧ n < stop) ∨ contains (dropInside start stop inner) n = true := by
  fun_induction dropInside start stop inner with
  | case1 first last steps hinside ih =>
      rw [contains_cons_cons] at h
      split at h
      · cases h
      · split at h
        · left
          omega
        · exact ih h
  | case2 | case3 => exact .inr h

theorem head_le_of_contains (h : contains outer n = true) : ∀ first ∈ outer.head?, first ≤ n := by
  cases outer with
  | nil => simp
  | cons first steps =>
      rintro _ ⟨⟩
      by_contra hlt
      simp [contains, Nat.lt_of_not_le hlt] at h

theorem contains_of_within (hsorted : outer.IsChain (· ≤ ·)) (hwithin : within inner outer = true)
    (h : contains inner n = true) : contains outer n = true := by
  fun_induction within inner outer with
  | case1 inner start stop outer ih =>
      obtain ⟨hle, hsorted⟩ := List.isChain_cons_cons.1 hsorted
      rw [contains_cons_cons]
      rcases contains_dropInside h with ⟨hstart, hstop⟩ | h
      · rw [if_neg (Nat.not_lt.2 hstart), if_pos hstop]
      · have houter := ih hsorted.tail hwithin h
        -- what lies in a later stretch lies behind this one's beginning
        have hstart : start ≤ n := by
          obtain ⟨first, hfirst⟩ : ∃ first, outer.head? = some first := by
            cases outer with
            | nil => simp [contains] at houter
            | cons first outer => exact ⟨first, rfl⟩
          have hstop := (List.isChain_cons.1 hsorted).1 first hfirst
          have := head_le_of_contains houter first hfirst
          omega
        rw [if_neg (Nat.not_lt.2 hstart), houter]
        split
        · rfl
        · rfl
  | case2 =>
      obtain rfl := List.isEmpty_iff.1 hwithin
      simp [contains] at h

end Steps

namespace Text

variable {c : Char}

theorem isNameChar_of_isDecimal (h : isDecimal c = true) : isNameChar c = true := by
  have halnum : isAlnum c = true := by
    unfold isDecimal at h
    unfold isAlnum
    split at h
    · next hascii =>
        rw [if_pos hascii, Char.isAlphanum, h, Bool.or_true]
    · next hascii =>
        rw [if_neg hascii]
        exact Steps.contains_of_within (by decide +kernel) (by decide +kernel) h
  rw [isNameChar, isWordChar, halnum]
  rfl

theorem isNameChar_of_isDigitSign (h : isDigitSign c = true) : isNameChar c = true := by
  rcases Bool.or_eq_true_iff.1 h with hdecimal | hsign
  · exact isNameChar_of_isDecimal hdecimal
  · have hfirst := Steps.head_le_of_contains hsign 178 rfl
    have halnum : isAlnum c = true := by
      rw [isAlnum, if_neg (by omega)]
      exact Steps.contains_of_within (by decide +kernel) (by decide +kernel) hsign
    rw [isNameChar, isWordChar, halnum]
    rfl

theorem toNat_lt_of_isHexDigit (h : isHexDigit c = true) : c.toNat < 128 := by
  rcases Bool.or_eq_true_iff.1 h with hfirst | hupper
  · rcases Bool.or_eq_true_iff.1 hfirst with hdigit | hlower
    · have hlast : c.toNat ≤ 57 := of_decide_eq_true (Bool.and_eq_true_iff.1 hdigit).2
      omega
    · have hlast : c.toNat ≤ 102 := of_decide_eq_true (Bool.and_eq_true_iff.1 hlower).2
      omega
  · have hlast : c.toNat ≤ 70 := of_decide_eq_true (Bool.and_eq_true_iff.1 hupper).2
    omega

theorem isNameChar_of_isHexDigit (h : isHexDigit c = true) : isNameChar c = true := by
  have hall : (List.range 128).all (fun n =>
      !isHexDigit (Char.ofNat n) || isNameChar (Char.ofNat n)) = true := by
    decide +kernel
  have hc := List.all_eq_true.1 hall c.toNat (List.mem_range.2 (toNat_lt_of_isHexDigit h))
  simpa only [Char.ofNat_toNat, h, Bool.not_true, Bool.false_or] using hc

end Text

end Restate

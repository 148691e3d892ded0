import Mathlib.Data.List.Nodup
import Restate.Text.Case

/-!
# Numbered names

Names that are told apart by a number at their end. Main statements: of such names one more than are
used cannot all be used (`exists_le_not_mem`), and they stay apart in lower case
(`lower_numbered_injective`), which leaves the digits of a number as they are.
-/

namespace Restate.Text

theorem numeral_injective : Function.Injective numeral := by
  intro m n h
  rw [← Nat.ofDigitChars_ten_toDigits (n := m), show Nat.toDigits 10 m = Nat.toDigits 10 n from h,
    Nat.ofDigitChars_ten_toDigits]

theorem isDigit_of_mem_numeral {n : Nat} {c : Char} (h : c ∈ numeral n) : c.isDigit = true :=
  Nat.isDigit_of_mem_toDigits (by decide) (by decide) h

theorem toNat_lt_of_isDigit {c : Char} (h : c.isDigit = true) : c.toNat < 128 := by
  simp only [Char.isDigit, Bool.and_eq_true, decide_eq_true_eq] at h
  have hle : c.toNat ≤ 57 := UInt32.le_iff_toNat_le.1 h.2
  omega

/-- One more name than are used cannot all be used. -/
theorem exists_le_not_mem {name : Nat → Text} (hname : Function.Injective name) (used : List Text)
    (n : Nat) : ∃ i ≤ used.length, name (n + i) ∉ used := by
  by_contra hall
  have hall : ∀ i ≤ used.length, name (n + i) ∈ used := by simpa using hall
  let tried := (List.range (used.length + 1)).map fun i => name (n + i)
  have hnodup : tried.Nodup := by
    refine List.Nodup.map ?_ List.nodup_range
    intro i j hij
    have := hname hij
    omega
  have hsubset : tried ⊆ used := by
    intro x hx
    obtain ⟨i, hi, rfl⟩ := List.mem_map.1 hx
    exact hall i (by have := List.mem_range.1 hi; omega)
  have hlength := hnodup.length_le_of_subset hsubset
  simp only [tried, List.length_map, List.length_range] at hlength
  omega

section Lower

/-- No case is looked for past an underscore. -/
theorem head?_dropWhile_underscore (s more : Text) :
    ((s ++ '_' :: more).dropWhile isCaseIgnorable).head? =
      ((s ++ ['_']).dropWhile isCaseIgnorable).head? := by
  induction s with
  | nil =>
      rw [List.nil_append, List.nil_append, List.dropWhile_cons_of_neg (by decide),
        List.dropWhile_cons_of_neg (by decide)]
      rfl
  | cons c s ih =>
      rw [List.cons_append, List.cons_append, List.dropWhile_cons, List.dropWhile_cons]
      split
      · exact ih
      · rfl

/-- What follows an underscore does not count for the case of what stands before it. -/
theorem lowerAfter_underscore (cased : Bool) (s : Text) :
    ∃ front, ∀ more,
      lowerAfter cased (s ++ '_' :: more) = front ++ '_' :: lowerAfter false more := by
  induction s generalizing cased with
  | nil => exact ⟨[], fun more => rfl⟩
  | cons c s ih =>
      obtain ⟨front, hfront⟩ := ih (if isCaseIgnorable c then cased else isCased c)
      refine ⟨(if c.toNat = 0x3a3 then
          if cased && !((((s ++ ['_']).dropWhile isCaseIgnorable).head?.map isCased).getD false)
            then ['\u03c2'] else ['\u03c3']
        else lowerChar c) ++ front, fun more => ?_⟩
      rw [List.cons_append, lowerAfter, hfront, head?_dropWhile_underscore, List.append_assoc]

theorem lowerChar_digit {c : Char} (h : c.isDigit = true) : lowerChar c = [c] := by
  simp only [Char.isDigit, Bool.and_eq_true, decide_eq_true_eq] at h
  have hnine : c.toNat ≤ 57 := h.2
  have hlower : c.toLower = c := by
    unfold Char.toLower
    rw [dif_neg]
    rintro ⟨hcapital, -⟩
    have hcapital : 65 ≤ c.toNat := hcapital
    omega
  rw [lowerChar, if_pos (by omega), hlower]

theorem lowerAfter_digits {s : Text} (h : ∀ c ∈ s, c.isDigit = true) (cased : Bool) :
    lowerAfter cased s = s := by
  induction s generalizing cased with
  | nil => rfl
  | cons c s ih =>
      obtain ⟨hc, hs⟩ := List.forall_mem_cons.1 h
      have hsigma : c.toNat ≠ 0x3a3 := by
        intro hsigma
        obtain rfl : c = '\u03a3' := Char.toNat_inj.1 hsigma
        simp at hc
      rw [lowerAfter, if_neg hsigma, lowerChar_digit hc, ih hs]
      rfl

/-- Numbered names stay apart in lower case. -/
theorem lower_numbered_injective (name : Text) :
    Function.Injective fun n => lower (name ++ '_' :: numeral n) := by
  obtain ⟨front, hfront⟩ := lowerAfter_underscore false name
  have hdigits : ∀ n, lower (name ++ '_' :: numeral n) = front ++ '_' :: numeral n := by
    intro n
    rw [lower, hfront, lowerAfter_digits]
    exact fun c hc => isDigit_of_mem_numeral hc
  intro m n h
  simp only [hdigits] at h
  exact numeral_injective (List.cons.inj (List.append_cancel_left h)).2

end Lower

end Restate.Text

import Mathlib.Data.List.DropRight
import Restate.Text.Alnum
import Restate.Text.Blank

/-!
# Blanks, one by one and at the end of a text

The blanks are few, so what holds of every blank is checked on each of them. A text that ends in no
blank loses nothing at its end when it is stripped.
-/

namespace Restate.Text

/-- Every blank. -/
def blanks : List Char :=
  (List.range' 9 5 ++ List.range' 28 5 ++ [133, 160, 5760] ++ List.range' 8192 11
    ++ [8232, 8233, 8239, 8287, 12288]).map Char.ofNat

variable {f : Char → Bool} {c : Char}

theorem mem_blanks (h : isBlank c = true) : c ∈ blanks := by
  have hpoints : ∀ n, Steps.contains blankSteps n = true →
      n ∈ List.range' 9 5 ++ List.range' 28 5 ++ [133, 160, 5760] ++ List.range' 8192 11
        ++ [8232, 8233, 8239, 8287, 12288] := by
    intro n hn
    simp only [Steps.contains, blankSteps] at hn
    simp
    grind
  exact List.mem_map.2 ⟨c.toNat, hpoints _ h, Char.ofNat_toNat c⟩

theorem not_of_isBlank (hf : blanks.all (!f ·) = true) (h : isBlank c = true) : f c = false := by
  simpa using List.all_eq_true.1 hf c (mem_blanks h)

theorem isBlank_of_isWordChar (h : isWordChar c = true) : isBlank c = false := by
  have hblanks : blanks.all (!isWordChar ·) = true := by
    decide +kernel
  cases hc : isBlank c with
  | false => rfl
  | true => simp [not_of_isBlank hblanks hc] at h

theorem rdropWhile_append_blank {s : Text} (hs : s.all isBlank = true) (r : Text) :
    (r ++ s).rdropWhile isBlank = r.rdropWhile isBlank := by
  unfold List.rdropWhile
  rw [List.reverse_append, List.dropWhile_append_of_pos]
  simpa using hs

theorem rdropWhile_append_other {s : Text} (hs : s.all isBlank = false) (r : Text) :
    (r ++ s).rdropWhile isBlank = r ++ s.rdropWhile isBlank := by
  unfold List.rdropWhile
  rw [List.reverse_append, List.dropWhile_append, if_neg]
  · simp
  · simpa using hs

theorem rdropWhile_cons_other {c : Char} (hc : isBlank c = false) (s : Text) :
    (c :: s).rdropWhile isBlank = c :: s.rdropWhile isBlank := by
  cases hs : s.all isBlank with
  | true =>
      have hnil : s.rdropWhile isBlank = [] := by simpa using hs
      rw [← List.singleton_append, rdropWhile_append_blank hs, List.rdropWhile_singleton, hnil]
      simp [hc]
  | false => rw [← List.singleton_append, rdropWhile_append_other hs, List.singleton_append]

/-- The text does not end in a blank. -/
def EndsSolid (s : Text) : Prop :=
  ∀ c ∈ s.getLast?, isBlank c = false

variable {s : Text}

theorem endsSolid_of_forall (h : ∀ c ∈ s, isBlank c = false) : EndsSolid s :=
  fun c hc => h c (List.mem_of_getLast? hc)

theorem endsSolid_of_getLast? (h : s.getLast? = some c) (hc : isBlank c = false) :
    EndsSolid s := by
  intro d hd
  obtain rfl : c = d := Option.some.inj (h.symm.trans hd)
  exact hc

theorem EndsSolid.append (h : EndsSolid s) (hs : s ≠ []) (r : Text) : EndsSolid (r ++ s) := by
  unfold EndsSolid at *
  rwa [List.getLast?_append_of_ne_nil r hs]

theorem EndsSolid.rdropWhile_eq (h : EndsSolid s) : s.rdropWhile isBlank = s := by
  rw [List.rdropWhile_eq_self_iff]
  intro hs
  have := h (s.getLast hs) (List.getLast?_eq_getLast_of_ne_nil hs)
  simp [this]

end Restate.Text

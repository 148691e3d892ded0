import Restate.Text.Surrogate

/-!
# Texts with lone surrogates

A character that stands for a lone surrogate stands for that one only (`surrogate?_char`), and it
lies beyond all characters that are not private. Texts are written one after another up to the first
that holds such a character: main statements `encoded_of_free` and `encoded_of_stands`.
-/

namespace Restate.StandIns

variable {standIns : StandIns} {c : Char} {text : Text} {texts : List Text}

/-- Each surrogate has a character of its own. -/
theorem surrogate?_char {block : Fin 64} {surrogate : Nat} (hlow : 0xD800 ≤ surrogate)
    (hhigh : surrogate < 0xE000) :
    StandIns.surrogate? ⟨some block⟩ (StandIns.char ⟨some block⟩ surrogate) = some surrogate := by
  have hstart : 0xF0000 ≤ start block ∧ start block + 0x800 ≤ 0x110000 := by
    unfold start
    omega
  have hchar : (StandIns.char ⟨some block⟩ surrogate).toNat =
      start block + (surrogate - 0xD800) := by
    have hvalid : (start block + (surrogate - 0xD800)).isValidChar := by
      unfold Nat.isValidChar
      omega
    change (Char.ofNat (start block + (surrogate - 0xD800))).toNat = _
    rw [Char.ofNat, dif_pos hvalid]
    rfl
  simp only [surrogate?, Option.bind_some, hchar]
  rw [if_pos (by simp; omega)]
  exact congrArg some (by omega)

/-- A character of one of the first planes stands for nothing. -/
theorem stands_of_lt (standIns : StandIns) (h : c.toNat < 0xF0000) :
    standIns.stands c = false := by
  unfold stands surrogate?
  cases standIns.block with
  | none => rfl
  | some block =>
      have hstart : ¬ start block ≤ c.toNat := by
        unfold start
        omega
      simp [hstart]

theorem fault?_eq_none_iff : standIns.fault? text = none ↔
    ∀ c ∈ text, standIns.stands c = false := by
  simp only [fault?, Option.map_eq_none_iff]
  induction text with
  | nil => simp
  | cons c text ih =>
      cases hstands : standIns.stands c with
      | true =>
          obtain ⟨surrogate, hsurrogate⟩ := Option.isSome_iff_exists.1 hstands
          simp [hstands, hsurrogate]
      | false => simpa [hstands] using ih

/-- Texts that all can be encoded are written one behind the other. -/
theorem encoded_of_free (h : ∀ c ∈ texts.flatten, standIns.stands c = false) :
    standIns.encoded texts = (texts.flatten, none) := by
  induction texts with
  | nil => rfl
  | cons text texts ih =>
      simp only [List.flatten_cons, List.mem_append, or_imp, forall_and] at h
      rw [encoded, fault?_eq_none_iff.2 h.1, ih h.2, List.flatten_cons]

/-- Of other texts those are written that stand before the first that cannot be encoded. -/
theorem encoded_of_stands (h : ∃ c ∈ texts.flatten, standIns.stands c = true) :
    ∃ before text after fault, texts = before ++ text :: after ∧
      (∀ c ∈ before.flatten, standIns.stands c = false) ∧ standIns.fault? text = some fault ∧
      standIns.encoded texts = (before.flatten, some fault) := by
  induction texts with
  | nil => simp at h
  | cons text texts ih =>
      cases hfault : standIns.fault? text with
      | some fault =>
          exact ⟨[], text, texts, fault, rfl, by simp, hfault, by simp [encoded, hfault]⟩
      | none =>
          have hfree := fault?_eq_none_iff.1 hfault
          obtain ⟨c, hc, hstands⟩ := h
          have hmore : c ∈ texts.flatten := by
            rcases List.mem_append.1 (List.flatten_cons ▸ hc) with hc | hc
            · exact absurd hstands (by simp [hfree c hc])
            · exact hc
          obtain ⟨before, first, after, fault, rfl, hbefore, hfirst, hencoded⟩ :=
            ih ⟨c, hmore, hstands⟩
          refine ⟨text :: before, first, after, fault, rfl, ?_, hfirst, ?_⟩
          · simp only [List.flatten_cons, List.mem_append, or_imp, forall_and]
            exact ⟨hfree, hbefore⟩
          · rw [encoded, hfault, hencoded]
            rfl

end Restate.StandIns

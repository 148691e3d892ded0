import Restate.Text.Case

/-!
# Signs in upper case

A character that stands before the letters is its own upper case, and the upper case of no other
text holds it in its place. So such a sign is told from the upper case of a text just as from the
text itself. Main statements: `upper_eq_sign_iff` and `head?_upper_sign_iff`.
-/

namespace Restate.Text

/-- The code point is that of a character which does not stand before the letters. -/
def IsPastSigns (n : Nat) : Prop :=
  65 ≤ n ∧ n.isValidChar

instance (n : Nat) : Decidable (IsPastSigns n) :=
  inferInstanceAs (Decidable (_ ∧ _))

variable {m c : Char} {n : Nat}

theorem ofNat_ne_of_isPastSigns (hm : m.toNat < 65) (hn : IsPastSigns n) : Char.ofNat n ≠ m := by
  obtain ⟨hletters, hvalid⟩ := hn
  have htoNat : (Char.ofNat n).toNat = n := by
    rw [Char.ofNat, dif_pos hvalid]
    rfl
  rintro rfl
  omega

theorem upperExpansions_isPastSigns :
    ∀ expansion ∈ upperExpansions, expansion.2 ≠ [] ∧ ∀ n ∈ expansion.2, IsPastSigns n := by
  decide +kernel

/-- Both ends of a run are moved to one side of the code points that are no characters. -/
theorem upperRuns_isPastSigns :
    ∀ run ∈ upperRuns, 65 ≤ run.image ∧ (run.image + (run.last - run.first) < 0xd800 ∨
      0xdfff < run.image ∧ run.image + (run.last - run.first) < 0x110000) := by
  decide +kernel

theorem image?_isPastSigns {image : Nat} (h : CaseRun.image? upperRuns n = some image) :
    IsPastSigns image := by
  obtain ⟨run, hrun, rfl⟩ := Option.map_eq_some_iff.1 h
  have hheld := List.find?_some hrun
  simp only [Bool.and_eq_true, decide_eq_true_eq] at hheld
  obtain ⟨hletters, hvalid⟩ := upperRuns_isPastSigns run (List.mem_of_find?_eq_some hrun)
  have hlast : n - run.first ≤ run.last - run.first := by omega
  refine ⟨by omega, ?_⟩
  unfold Nat.isValidChar
  omega

theorem toUpper_eq_sign_iff (hm : m.toNat < 65) : c.toUpper = m ↔ c = m := by
  by_cases hlower : 'a'.val ≤ c.val ∧ c.val ≤ 'z'.val
  · have hfirst : 97 ≤ c.toNat := hlower.1
    have hlast : c.toNat ≤ 122 := hlower.2
    -- the distance to the capitals is negative, so the code points wrap around
    have hcapital : c.toUpper.toNat = (c.toNat + 4294967264) % 4294967296 := by
      obtain ⟨hvalid, hupper⟩ : ∃ hvalid, c.toUpper = ⟨c.val + ('A'.val - 'a'.val), hvalid⟩ :=
        ⟨_, dif_pos hlower⟩
      rw [hupper]
      exact UInt32.toNat_add c.val ('A'.val - 'a'.val)
    refine iff_of_false ?_ ?_
    · rintro rfl
      omega
    · rintro rfl
      omega
  · have hupper : c.toUpper = c := dif_neg hlower
    rw [hupper]

theorem mem_upperChar_sign (hm : m.toNat < 65) : m ∈ upperChar c ↔ c = m := by
  unfold upperChar
  split
  · rw [List.mem_singleton, eq_comm, toUpper_eq_sign_iff hm]
  · next hascii =>
      have hne : c ≠ m := by
        rintro rfl
        omega
      refine iff_of_false ?_ hne
      split
      · next image hfind =>
          intro hmem
          obtain ⟨n, hn, hofNat⟩ := List.mem_map.1 hmem
          have hpast := (upperExpansions_isPastSigns _ (List.mem_of_find?_eq_some hfind)).2 n hn
          exact ofNat_ne_of_isPastSigns hm hpast hofNat
      · rw [List.mem_singleton]
        cases himage : CaseRun.image? upperRuns c.toNat with
        | none => exact fun h => hne h.symm
        | some image =>
            exact fun h => ofNat_ne_of_isPastSigns hm (image?_isPastSigns himage) h.symm

theorem upperChar_ne_nil (c : Char) : upperChar c ≠ [] := by
  unfold upperChar
  split
  · exact List.cons_ne_nil _ _
  · split
    · next image hfind =>
        have hne := (upperExpansions_isPastSigns _ (List.mem_of_find?_eq_some hfind)).1
        simpa using hne
    · exact List.cons_ne_nil _ _

theorem upperChar_sign (hm : m.toNat < 65) : upperChar m = [m] := by
  rw [upperChar, if_pos (by omega), (toUpper_eq_sign_iff hm).2 rfl]

/-- A text begins with a sign just if its upper case does. -/
theorem head?_upper_sign_iff (hm : m.toNat < 65) (s : Text) :
    (upper s).head? = some m ↔ s.head? = some m := by
  cases s with
  | nil => rfl
  | cons c s =>
      obtain ⟨d, rest, hd⟩ := List.exists_cons_of_ne_nil (upperChar_ne_nil c)
      rw [upper, List.flatMap_cons, hd, List.cons_append, List.head?_cons, List.head?_cons,
        Option.some_inj, Option.some_inj]
      constructor
      · rintro rfl
        exact (mem_upperChar_sign hm).1 (hd ▸ List.mem_cons_self)
      · rintro rfl
        rw [upperChar_sign hm] at hd
        exact (List.cons.inj hd).1.symm

/-- A text is a sign just if its upper case is. -/
theorem upper_eq_sign_iff (hm : m.toNat < 65) (s : Text) : upper s = [m] ↔ s = [m] := by
  constructor
  · intro h
    have hhead : s.head? = some m := (head?_upper_sign_iff hm s).1 (by rw [h]; rfl)
    obtain ⟨rest, rfl⟩ := List.head?_eq_some_iff.1 hhead
    rw [upper, List.flatMap_cons, upperChar_sign hm, List.singleton_append, List.cons.injEq] at h
    cases rest with
    | nil => rfl
    | cons c rest =>
        obtain ⟨hnil, -⟩ := List.append_eq_nil_iff.1 (List.flatMap_cons ▸ h.2)
        exact absurd hnil (upperChar_ne_nil c)
  · rintro rfl
    rw [upper, List.flatMap_cons, upperChar_sign hm]
    rfl

end Restate.Text

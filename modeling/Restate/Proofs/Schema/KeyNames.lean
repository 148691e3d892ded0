import Restate.Proofs.Text.Numbered
import Restate.Schema.Table

/-!
# Names of keys

The keys of a table get names one after another. Main statement: the name that is given is the
declared one if it is free, and otherwise the first free one with a number behind it, and no name is
given twice in whatever case (`distinctKeys_namedApart`).
-/

namespace Restate.Table

/-- The name itself if its lower case is not used, and otherwise the first of the numbered ones,
from 2 on, whose lower case is not. -/
def IsFirstFree (used : List Text) (name chosen : Text) : Prop :=
  if Text.lower name ∈ used then
    ∃ n, 2 ≤ n ∧ chosen = numberedName name n ∧ Text.lower chosen ∉ used ∧
      ∀ m, 2 ≤ m → m < n → Text.lower (numberedName name m) ∈ used
  else chosen = name

section Free

variable {used : List Text} {name : Text} {m n tries : Nat}

theorem lower_numberedName_injective (name : Text) :
    Function.Injective fun n => Text.lower (numberedName name n) := by
  have heq : ∀ n, numberedName name n = name ++ '_' :: Text.numeral n := by
    intro n
    simp [numberedName]
  simpa only [heq] using Text.lower_numbered_injective name

theorem le_freeNumber : n ≤ freeNumber used name n tries := by
  induction tries generalizing n with
  | zero => exact Nat.le_refl n
  | succ tries ih =>
      rw [freeNumber]
      split
      · exact Nat.le_trans (Nat.le_succ n) ih
      · exact Nat.le_refl n

/-- The numbers that are passed are used. -/
theorem mem_of_lt_freeNumber (hle : n ≤ m) (hlt : m < freeNumber used name n tries) :
    Text.lower (numberedName name m) ∈ used := by
  induction tries generalizing n with
  | zero =>
      rw [freeNumber] at hlt
      omega
  | succ tries ih =>
      rw [freeNumber] at hlt
      split at hlt
      · next hused =>
          rcases Nat.eq_or_lt_of_le hle with rfl | hlt'
          · simpa using hused
          · exact ih hlt' hlt
      · omega

/-- The search ends at a free number if one is within its tries. -/
theorem freeNumber_not_mem
    (hfree : ∃ i ≤ tries, Text.lower (numberedName name (n + i)) ∉ used) :
    Text.lower (numberedName name (freeNumber used name n tries)) ∉ used := by
  induction tries generalizing n with
  | zero =>
      obtain ⟨i, hi, hnot⟩ := hfree
      obtain rfl : i = 0 := by omega
      exact hnot
  | succ tries ih =>
      rw [freeNumber]
      split
      · next hused =>
          apply ih
          obtain ⟨i, hi, hnot⟩ := hfree
          cases i with
          | zero => exact absurd hused (by simpa using hnot)
          | succ i => exact ⟨i, by omega, by rwa [Nat.add_right_comm, Nat.add_assoc]⟩
      · next hunused => simpa using hunused

theorem freeName_isFirstFree (used : List Text) (name : Text) :
    IsFirstFree used name (freeName used name) := by
  unfold IsFirstFree freeName
  by_cases hused : Text.lower name ∈ used
  · rw [if_pos hused, if_pos (by simpa using hused)]
    refine ⟨_, le_freeNumber, rfl, freeNumber_not_mem ?_, fun m => mem_of_lt_freeNumber⟩
    exact Text.exists_le_not_mem (lower_numberedName_injective name) used 2
  · rw [if_neg hused, if_neg (by simpa using hused)]

theorem IsFirstFree.not_mem {chosen : Text} (h : IsFirstFree used name chosen) :
    Text.lower chosen ∉ used := by
  unfold IsFirstFree at h
  split at h
  · obtain ⟨n, -, -, hfree, -⟩ := h
    exact hfree
  · next hfree =>
      rw [h]
      exact hfree

theorem IsFirstFree.congr {used' : List Text} {chosen : Text} (h : ∀ x, x ∈ used ↔ x ∈ used') :
    IsFirstFree used name chosen ↔ IsFirstFree used' name chosen := by
  simp only [IsFirstFree, h]

end Free

section Distinct

/-- The names of indexes, in lower case. -/
def lowerNames (indexes : List Index) : List Text :=
  indexes.map fun index => Text.lower index.name

variable {used : List Text} {keys : List Index}

theorem length_distinctKeys (used : List Text) (keys : List Index) :
    (distinctKeys used keys).length = keys.length := by
  induction keys generalizing used with
  | nil => rfl
  | cons key keys ih => simp [distinctKeys, ih]

/-- Each key keeps all but its name, and that is the first free one of those it may get. -/
theorem distinctKeys_named {i : Nat} {key index : Index} (hkey : keys[i]? = some key)
    (hindex : (distinctKeys used keys)[i]? = some index) :
    index = { key with name := index.name } ∧
      IsFirstFree (lowerNames ((distinctKeys used keys).take i) ++ used) key.name index.name := by
  induction keys generalizing used i with
  | nil => simp at hkey
  | cons first keys ih =>
      rw [distinctKeys] at hindex ⊢
      cases i with
      | zero =>
          obtain rfl : first = key := by simpa using hkey
          obtain rfl := Option.some.inj hindex
          exact ⟨rfl, freeName_isFirstFree used first.name⟩
      | succ i =>
          rw [List.getElem?_cons_succ] at hkey hindex
          obtain ⟨heq, hfree⟩ := ih hkey hindex
          refine ⟨heq, (IsFirstFree.congr fun x => ?_).1 hfree⟩
          simp only [lowerNames, List.take_succ_cons, List.map_cons, List.mem_append,
            List.mem_cons]
          tauto

theorem nodup_distinctKeys (used : List Text) (keys : List Index) :
    (lowerNames (distinctKeys used keys)).Nodup ∧
      ∀ x ∈ lowerNames (distinctKeys used keys), x ∉ used := by
  induction keys generalizing used with
  | nil => simp [distinctKeys, lowerNames]
  | cons key keys ih =>
      obtain ⟨hnodup, hfresh⟩ := ih (Text.lower (freeName used key.name) :: used)
      have hfree := (freeName_isFirstFree used key.name).not_mem
      have hcons : lowerNames (distinctKeys used (key :: keys)) =
          Text.lower (freeName used key.name) ::
            lowerNames (distinctKeys (Text.lower (freeName used key.name) :: used) keys) := rfl
      rw [hcons]
      constructor
      · refine List.nodup_cons.2 ⟨fun hmem => ?_, hnodup⟩
        exact hfresh _ hmem List.mem_cons_self
      · intro x hx
        rcases List.mem_cons.1 hx with rfl | hx
        · exact hfree
        · exact fun hused => hfresh x hx (List.mem_cons_of_mem _ hused)

/-- Each key keeps all but its name, gets the first free one of those it may have, and no name is
given twice. -/
def NamedApart (keys named : List Index) : Prop :=
  named.length = keys.length ∧
    (∀ i key index, keys[i]? = some key → named[i]? = some index →
      index = { key with name := index.name } ∧
        IsFirstFree (lowerNames (named.take i)) key.name index.name) ∧
    (lowerNames named).Nodup

theorem distinctKeys_namedApart (keys : List Index) : NamedApart keys (distinctKeys [] keys) := by
  refine ⟨length_distinctKeys [] keys, ?_, (nodup_distinctKeys [] keys).1⟩
  intro i key index hkey hindex
  have hnamed := distinctKeys_named hkey hindex
  rwa [List.append_nil] at hnamed

end Distinct

end Restate.Table

import Mathlib.Data.List.Basic
import Restate.Schema.Index

/-!
# Names of indexes

The name of an index joins the names of its table and of its key by two underscores, and either name
may hold underscores of its own. Main statement: two pairs of names are joined to one name just if
the one is got from the other by moving what the separator is found in (`Index.names_apart_iff`).
-/

namespace Restate

namespace Index

/-- What the names of a table and a key are joined to is also what a longer name of a table and a
shorter one of a key are joined to: an underscore of the key's moves to the table's, or a part of
it up to a separator of its own does. -/
def Straddles (table key table' key' : Text) : Prop :=
  (table' = table ++ "_" ∧ key = "_" ++ key') ∨
    ∃ part, table' = table ++ "__" ++ part ∧ key = part ++ "__" ++ key'

section

variable {table key table' key' : Text}

theorem Straddles.fullNameOf_eq (h : Straddles table key table' key') :
    fullNameOf table key = fullNameOf table' key' := by
  rcases h with ⟨rfl, rfl⟩ | ⟨part, rfl, rfl⟩
  · simp [fullNameOf]
  · simp [fullNameOf]

theorem Straddles.length_lt (h : Straddles table key table' key') :
    table.length < table'.length := by
  rcases h with ⟨rfl, -⟩ | ⟨part, rfl, -⟩
  · simp
  · simp

/-- A name that is joined in two ways has its separators in two places. -/
theorem straddles_iff : Straddles table key table' key' ↔
    table.length < table'.length ∧ fullNameOf table key = fullNameOf table' key' := by
  constructor
  · exact fun h => ⟨h.length_lt, h.fullNameOf_eq⟩
  · rintro ⟨hlength, hjoined⟩
    simp only [fullNameOf, List.append_assoc] at hjoined
    rcases List.append_eq_append_iff.1 hjoined with ⟨moved, rfl, hkey⟩ | ⟨moved, rfl, -⟩
    · -- the separator stands before the key, and again behind what moves to the table
      have hkey : '_' :: '_' :: key = moved ++ '_' :: '_' :: key' := hkey
      match moved with
      | [] => simp at hlength
      | [c] =>
          obtain ⟨rfl, hrest⟩ := List.cons.inj hkey
          exact .inl ⟨rfl, (List.cons.inj hrest).2⟩
      | c :: d :: part =>
          obtain ⟨rfl, hrest⟩ := List.cons.inj hkey
          obtain ⟨rfl, rfl⟩ := List.cons.inj hrest
          exact .inr ⟨part, by simp, by simp⟩
    · rw [List.length_append] at hlength
      omega

instance : Decidable (Straddles table key table' key') :=
  decidable_of_iff _ straddles_iff.symm

theorem fullNameOf_eq_iff : fullNameOf table key = fullNameOf table' key' ↔
    table = table' ∧ key = key' ∨ Straddles table key table' key' ∨
      Straddles table' key' table key := by
  constructor
  · intro hjoined
    rcases Nat.lt_trichotomy table.length table'.length with hlt | heq | hgt
    · exact .inr (.inl (straddles_iff.2 ⟨hlt, hjoined⟩))
    · simp only [fullNameOf, List.append_assoc] at hjoined
      obtain ⟨rfl, hkey⟩ := List.append_inj hjoined heq
      exact .inl ⟨rfl, List.append_cancel_left hkey⟩
    · exact .inr (.inr (straddles_iff.2 ⟨hgt, hjoined.symm⟩))
  · rintro (⟨rfl, rfl⟩ | h | h)
    · rfl
    · exact h.fullNameOf_eq
    · exact h.fullNameOf_eq.symm

/-- A dropped index is found by its name. -/
theorem renderDrop_eq_iff : renderDrop table key = renderDrop table' key' ↔
    fullNameOf table key = fullNameOf table' key' := by
  unfold renderDrop
  rw [List.append_cancel_left_eq, quoteIdentifier_injective.eq_iff]

/-- Tables whose names hold no two underscores in a row and end in none keep their indexes apart,
whatever the keys are called. -/
theorem fullNameOf_inj_of_table (hdouble : ¬ ("__" : Text) <:+: table)
    (hsuffix : ¬ ("_" : Text) <:+ table) (hdouble' : ¬ ("__" : Text) <:+: table')
    (hsuffix' : ¬ ("_" : Text) <:+ table') :
    fullNameOf table key = fullNameOf table' key' ↔ table = table' ∧ key = key' := by
  have hnot : ∀ {table key table' key' : Text}, ¬ ("__" : Text) <:+: table' →
      ¬ ("_" : Text) <:+ table' → ¬ Straddles table key table' key' := by
    rintro table key table' key' hdouble hsuffix (⟨rfl, -⟩ | ⟨part, rfl, -⟩)
    · exact hsuffix (List.suffix_append table "_")
    · exact hdouble (List.infix_append table "__" part)
  rw [fullNameOf_eq_iff, or_iff_left]
  rintro (h | h)
  · exact hnot hdouble' hsuffix' h
  · exact hnot hdouble hsuffix h

/-- Two keys have indexes of different names, and neither is dropped for the other, just if neither
of the pairs of names straddles the other's. -/
theorem names_apart_iff (h : (table, key) ≠ (table', key')) :
    (fullNameOf table key ≠ fullNameOf table' key' ∧
        renderDrop table key ≠ renderDrop table' key') ↔
      ¬ Straddles table key table' key' ∧ ¬ Straddles table' key' table key := by
  have hpair : ¬ (table = table' ∧ key = key') := fun heq => h (Prod.ext heq.1 heq.2)
  rw [Ne, Ne, renderDrop_eq_iff, and_self, fullNameOf_eq_iff, or_iff_right hpair, not_or]

end

/-- Underscores at an edge of a name do not make it one of another pair by themselves. -/
theorem names_apart_of_edges :
    (("a_", "b") : Text × Text) ≠ (("a", "b_") : Text × Text) ∧
      fullNameOf "a_" "b" ≠ fullNameOf "a" "b_" ∧ renderDrop "a_" "b" ≠ renderDrop "a" "b_" :=
  ⟨by decide, (names_apart_iff (by decide)).2 (by decide)⟩

/-- A separator inside a name is taken for the one between the names. -/
theorem names_not_apart :
    (("a__b", "c") : Text × Text) ≠ (("a", "b__c") : Text × Text) ∧
      fullNameOf "a__b" "c" = fullNameOf "a" "b__c" ∧
      renderDrop "a__b" "c" = renderDrop "a" "b__c" := by
  decide

end Index

end Restate

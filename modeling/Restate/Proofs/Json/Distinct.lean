import Restate.Json.Reader
import Restate.Proofs.Fields

/-!
# Objects with distinct keys

Of several values under one key of an object the reader of JSON keeps the last. Main statement: no
object in a value that is read has a key twice (`distinct_of_parse`).
-/

namespace Restate.Json

/-- No object in the value, at whatever depth, has a key twice. -/
inductive Distinct : Json → Prop where
  | null : Distinct .null
  | bool (value : Bool) : Distinct (.bool value)
  | int (value : Int) : Distinct (.int value)
  | float (value : Double) : Distinct (.float value)
  | str (value : Text) : Distinct (.str value)
  | arr {items : List Json} : (∀ item ∈ items, Distinct item) → Distinct (.arr items)
  | obj {fields : Fields Json} :
      fields.keys.Nodup → (∀ entry ∈ fields, Distinct entry.2) → Distinct (.obj fields)

variable {standIns : StandIns} {s rest : Text} {value : Json}

/-- An object of members keeps only their last values. -/
theorem Distinct.ofEntries {members : List (Text × Json)}
    (h : ∀ entry ∈ members, Distinct entry.2) : Distinct (.obj (Fields.ofEntries members)) := by
  refine .obj (Fields.nodup_ofEntries members) fun entry hentry => ?_
  rcases Fields.mem_overlay hentry with hmem | hnil
  · exact h entry hmem
  · cases hnil

theorem distinct_of_word (h : word? s = some (value, rest)) : value.Distinct := by
  have hone : ∀ {word : Text} {single : Json}, single.Distinct →
      (behind? word s).map (single, ·) = some (value, rest) → value.Distinct := by
    intro word single hsingle hmap
    obtain ⟨_, -, heq⟩ := Option.map_eq_some_iff.1 hmap
    cases heq
    exact hsingle
  simp only [word?, Option.orElse_eq_orElse, Option.orElse_eq_or, Option.or_eq_some_iff] at h
  rcases h with h | ⟨-, h | ⟨-, h | ⟨-, h | ⟨-, h | ⟨-, h⟩⟩⟩⟩⟩
  · exact hone .null h
  · exact hone (.bool true) h
  · exact hone (.bool false) h
  · exact hone (.float _) h
  · exact hone (.float _) h
  · exact hone (.float _) h

theorem distinct_of_number (h : number? s = some (value, rest)) : value.Distinct := by
  unfold number? at h
  obtain ⟨⟨whole, rest'⟩, -, h⟩ := Option.bind_eq_some_iff.1 h
  dsimp only at h
  split at h
  · cases h
    exact .float _
  · split at h
    · split at h
      · cases h
      · cases h
        exact .int _
    · cases h
      exact .float _

/-- What is read within so many steps, of a value, of items or of members, holds distinct keys
only. -/
structure ReadsDistinct (standIns : StandIns) (fuel : Nat) : Prop where
  value : ∀ {s value rest}, value? standIns fuel s = some (value, rest) → value.Distinct
  items : ∀ {s items rest}, items? standIns fuel s = some (items, rest) →
    ∀ item ∈ items, item.Distinct
  members : ∀ {s members rest}, members? standIns fuel s = some (members, rest) →
    ∀ entry ∈ members, entry.2.Distinct

namespace ReadsDistinct

variable {fuel : Nat}

theorem value_succ (hreads : ReadsDistinct standIns fuel)
    (h : value? standIns (fuel + 1) s = some (value, rest)) : value.Distinct := by
  unfold value? at h
  split at h
  · obtain ⟨_, -, heq⟩ := Option.map_eq_some_iff.1 h
    cases heq
    exact .str _
  · split at h
    · cases h
      exact .arr (by simp)
    · obtain ⟨⟨items, left⟩, hitems, heq⟩ := Option.map_eq_some_iff.1 h
      cases heq
      exact .arr (hreads.items hitems)
  · split at h
    · cases h
      exact .obj List.nodup_nil (by simp)
    · obtain ⟨⟨members, left⟩, hmembers, heq⟩ := Option.map_eq_some_iff.1 h
      cases heq
      exact .ofEntries (hreads.members hmembers)
  · rw [Option.orElse_eq_orElse, Option.orElse_eq_or, Option.or_eq_some_iff] at h
    rcases h with h | ⟨-, h⟩
    · exact distinct_of_word h
    · exact distinct_of_number h

theorem items_succ (hreads : ReadsDistinct standIns fuel) {items : List Json}
    (h : items? standIns (fuel + 1) s = some (items, rest)) : ∀ item ∈ items, item.Distinct := by
  unfold items? at h
  obtain ⟨⟨item, left⟩, hitem, h⟩ := Option.bind_eq_some_iff.1 h
  have hitem := hreads.value hitem
  dsimp only at h
  split at h
  · cases h
    simpa using hitem
  · obtain ⟨⟨more, left⟩, hmore, heq⟩ := Option.bind_eq_some_iff.1 h
    cases heq
    exact List.forall_mem_cons.2 ⟨hitem, hreads.items hmore⟩
  · cases h

theorem members_succ (hreads : ReadsDistinct standIns fuel) {members : List (Text × Json)}
    (h : members? standIns (fuel + 1) s = some (members, rest)) :
    ∀ entry ∈ members, entry.2.Distinct := by
  unfold members? at h
  dsimp only at h
  split at h
  · obtain ⟨⟨key, left⟩, -, h⟩ := Option.bind_eq_some_iff.1 h
    dsimp only at h
    split at h
    · obtain ⟨⟨member, left⟩, hmember, h⟩ := Option.bind_eq_some_iff.1 h
      have hmember := hreads.value hmember
      dsimp only at h
      split at h
      · cases h
        simpa using hmember
      · obtain ⟨⟨more, left⟩, hmore, heq⟩ := Option.bind_eq_some_iff.1 h
        cases heq
        exact List.forall_mem_cons.2 ⟨hmember, hreads.members hmore⟩
      · cases h
    · cases h
  · cases h

end ReadsDistinct

theorem readsDistinct (standIns : StandIns) (fuel : Nat) : ReadsDistinct standIns fuel := by
  induction fuel with
  | zero => exact ⟨by simp [value?], by simp [items?], by simp [members?]⟩
  | succ fuel ih => exact ⟨ih.value_succ, ih.items_succ, ih.members_succ⟩

theorem distinct_of_readWith (h : readWith? standIns s = some value) : value.Distinct := by
  obtain ⟨⟨read, rest⟩, hread, h⟩ := Option.bind_eq_some_iff.1 h
  dsimp only at h
  split at h
  · cases h
    exact (readsDistinct standIns _).value hread
  · cases h

/-- No object of a JSON text has a key twice when it is read. -/
theorem distinct_of_parse (h : parse? s = some value) : value.Distinct :=
  distinct_of_readWith h

end Restate.Json

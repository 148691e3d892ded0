import Mathlib.Data.List.Induction
import Mathlib.Data.List.Nodup
import Restate.Fields

/-!
# Fields laid over fields

Laying fields over others keeps the keys that were there in their places, with new values where
there are any, and puts what is new behind them (`overlaid_overlay`). Of several entries under one
key the last counts (`get?_ofEntries`).
-/

namespace Restate.Fields

variable {α β : Type} {base more merged : Fields α} {key : Text}

/-- The merged fields have the keys of `base` in their places and behind them those that only `more`
has, in its order. A value comes from `more` wherever it has the key. -/
structure Overlaid (base more merged : Fields α) : Prop where
  keys : merged.keys = base.keys ++ more.keys.filter (· ∉ base.keys)
  value : ∀ key, merged.get? key = (more.get? key).or (base.get? key)

/-- The fields with a function applied to each value. -/
def mapValues (f : α → β) (fields : Fields α) : Fields β :=
  fields.map fun entry => (entry.1, f entry.2)

@[simp]
theorem get?_nil : get? ([] : Fields α) key = none :=
  rfl

theorem get?_cons (entry : Text × α) (fields : Fields α) :
    get? (entry :: fields) key = if entry.1 = key then some entry.2 else fields.get? key := by
  obtain ⟨k, value⟩ := entry
  by_cases hk : k = key
  · subst hk
    simp [get?]
  · have hne : (key == k) = false := by simpa using fun h => hk h.symm
    simp [get?, List.lookup_cons, hk, hne]

theorem get?_eq_none_iff {fields : Fields α} : fields.get? key = none ↔ key ∉ fields.keys := by
  induction fields with
  | nil => simp [keys]
  | cons entry fields ih =>
      rw [get?_cons, keys_cons, List.mem_cons, not_or, ← ih]
      by_cases hk : entry.1 = key
      · simp [hk]
      · simp [hk, Ne.symm hk]

theorem mem_of_get? {fields : Fields α} {value : α} (h : fields.get? key = some value) :
    (key, value) ∈ fields := by
  induction fields with
  | nil => simp at h
  | cons entry fields ih =>
      rw [get?_cons] at h
      split at h
      · next hk =>
          cases h
          exact hk ▸ List.mem_cons_self
      · exact List.mem_cons_of_mem _ (ih h)

/-- With distinct keys an entry is what is found under its key. -/
theorem get?_of_mem {fields : Fields α} {value : α} (hkeys : fields.keys.Nodup)
    (h : (key, value) ∈ fields) : fields.get? key = some value := by
  induction fields with
  | nil => cases h
  | cons entry fields ih =>
      obtain ⟨hnot, hkeys⟩ := List.nodup_cons.1 hkeys
      rw [get?_cons]
      rcases List.mem_cons.1 h with rfl | h
      · rw [if_pos rfl]
      · have hmem : key ∈ keys fields := List.mem_map.2 ⟨(key, value), h, rfl⟩
        rw [if_neg, ih hkeys h]
        rintro rfl
        exact hnot hmem

theorem get?_put (key other : Text) (value : α) (fields : Fields α) :
    (fields.put key value).get? other = if key = other then some value else fields.get? other := by
  split
  · next heq => rw [← heq, get?_put_self]
  · next hne => rw [get?_put_of_ne (Ne.symm hne)]

/-- What a fold of stores does, if what is stored under a key depends only on what was there. -/
theorem overlaid_foldl (f : Option α → β → α) {more : Fields β} (hmore : more.keys.Nodup)
    (base : Fields α) :
    let merged := more.foldl
      (fun fields entry => fields.put entry.1 (f (fields.get? entry.1) entry.2)) base
    merged.keys = base.keys ++ more.keys.filter (· ∉ base.keys) ∧
      ∀ key, merged.get? key = ((more.get? key).map (f (base.get? key))).or (base.get? key) := by
  induction more generalizing base with
  | nil => simp [keys]
  | cons entry more ih =>
      obtain ⟨hnot, hmore⟩ := List.nodup_cons.1 hmore
      obtain ⟨hkeys, hvalue⟩ :=
        ih hmore (base.put entry.1 (f (base.get? entry.1) entry.2))
      refine ⟨?_, fun key => ?_⟩
      · rw [List.foldl_cons, hkeys, keys_put, keys_cons, List.filter_cons]
        by_cases hmem : entry.1 ∈ base.keys
        · simp [hmem]
        · -- the new key stands behind the old ones, and no later key is equal to it
          have hfilter : (keys more).filter (· ∉ base.keys ++ [entry.1]) =
              (keys more).filter (· ∉ base.keys) := by
            refine List.filter_congr fun key hkey => ?_
            have hne : key ≠ entry.1 := by
              rintro rfl
              exact hnot hkey
            simp [hne]
          simp only [hmem, if_false, not_false_eq_true, decide_true, if_true]
          rw [hfilter, List.append_assoc]
          rfl
      · rw [List.foldl_cons, hvalue, get?_put, get?_cons]
        by_cases hk : entry.1 = key
        · subst hk
          have hnone := get?_eq_none_iff.2 hnot
          simp [hnone]
        · simp [hk]

/-- Laying fields with distinct keys over others. -/
theorem overlaid_overlay (hmore : more.keys.Nodup) (base : Fields α) :
    Overlaid base more (overlay base more) := by
  obtain ⟨hkeys, hvalue⟩ := overlaid_foldl (fun _ value => value) hmore base
  refine ⟨hkeys, fun key => (hvalue key).trans ?_⟩
  cases more.get? key with
  | none => rfl
  | some value => rfl

theorem nodup_put (h : base.keys.Nodup) (key : Text) (value : α) :
    (base.put key value).keys.Nodup := by
  rw [keys_put]
  split
  · exact h
  · next hnot => exact h.append (List.nodup_singleton key) (by simpa using hnot)

theorem nodup_overlay (h : base.keys.Nodup) (more : Fields α) : (overlay base more).keys.Nodup := by
  induction more generalizing base with
  | nil => exact h
  | cons entry more ih => exact ih (nodup_put h entry.1 entry.2)

theorem nodup_ofEntries (entries : List (Text × α)) : (ofEntries entries).keys.Nodup := by
  have hnone : (keys ([] : Fields α)).Nodup := List.nodup_nil
  exact nodup_overlay hnone entries

theorem mem_put {entry : Text × α} {value : α} (h : entry ∈ base.put key value) :
    entry = (key, value) ∨ entry ∈ base := by
  induction base with
  | nil => exact .inl (by simpa [put] using h)
  | cons first base ih =>
      obtain ⟨k, v⟩ := first
      rw [put] at h
      split at h
      · rcases List.mem_cons.1 h with rfl | h
        · exact .inl rfl
        · exact .inr (List.mem_cons_of_mem _ h)
      · rcases List.mem_cons.1 h with rfl | h
        · exact .inr List.mem_cons_self
        · exact (ih h).imp_right (List.mem_cons_of_mem _)

/-- Nothing is stored but the given entries. -/
theorem mem_overlay {entry : Text × α} (h : entry ∈ overlay base more) :
    entry ∈ more ∨ entry ∈ base := by
  induction more generalizing base with
  | nil => exact .inr h
  | cons first more ih =>
      rcases ih h with h | h
      · exact .inl (List.mem_cons_of_mem _ h)
      · rcases mem_put h with rfl | h
        · exact .inl List.mem_cons_self
        · exact .inr h

/-- The last of the items that pass a test. -/
def lastWhere (test : α → Bool) (items : List α) : Option α :=
  (items.filter test).getLast?

theorem lastWhere_append (test : α → Bool) (items more : List α) :
    lastWhere test (items ++ more) = (lastWhere test more).or (lastWhere test items) := by
  rw [lastWhere, List.filter_append, List.getLast?_append]
  rfl

theorem lastWhere_singleton (test : α → Bool) (item : α) :
    lastWhere test [item] = if test item then some item else none := by
  by_cases htest : test item
  · simp [lastWhere, htest]
  · simp [lastWhere, htest]

theorem lastWhere_map (test : β → Bool) (f : α → β) (items : List α) :
    lastWhere test (items.map f) = (lastWhere (test ∘ f) items).map f := by
  rw [lastWhere, List.filter_map, List.getLast?_map]
  rfl

theorem lastWhere_eq_none_iff {test : α → Bool} {items : List α} :
    lastWhere test items = none ↔ ∀ item ∈ items, ¬ test item := by
  rw [lastWhere, List.getLast?_eq_none_iff, List.filter_eq_nil_iff]

theorem mem_of_lastWhere {test : α → Bool} {items : List α} {item : α}
    (h : lastWhere test items = some item) : item ∈ items ∧ test item := by
  simpa using List.mem_filter.1 (List.mem_of_getLast? h)

/-- The last entry under a key counts. -/
theorem get?_ofEntries (entries : List (Text × α)) (key : Text) :
    (ofEntries entries).get? key = (lastWhere (·.1 = key) entries).map (·.2) := by
  induction entries using List.reverseRecOn with
  | nil => rfl
  | append_singleton entries entry ih =>
      rw [ofEntries, overlay, List.foldl_concat, ← overlay, ← ofEntries, get?_put, ih,
        lastWhere_append, lastWhere_singleton]
      by_cases hk : entry.1 = key
      · simp [hk]
      · simp [hk]

@[simp]
theorem keys_mapValues (f : α → β) (fields : Fields α) :
    (fields.mapValues f).keys = fields.keys := by
  simp [keys, mapValues]

theorem put_mapValues (f : α → β) (key : Text) (value : α) (fields : Fields α) :
    (fields.mapValues f).put key (f value) = (fields.put key value).mapValues f := by
  induction fields with
  | nil => rfl
  | cons entry fields ih =>
      obtain ⟨k, v⟩ := entry
      by_cases hk : k = key
      · simp [mapValues, put, hk]
      · simpa [mapValues, put, hk] using ih

/-- Values may be mapped before or after. -/
theorem overlay_mapValues (f : α → β) (base more : Fields α) :
    overlay (base.mapValues f) (more.mapValues f) = (overlay base more).mapValues f := by
  induction more generalizing base with
  | nil => rfl
  | cons entry more ih =>
      have hstep : overlay (base.mapValues f) (mapValues f (entry :: more)) =
          overlay ((base.put entry.1 entry.2).mapValues f) (mapValues f more) := by
        rw [← put_mapValues]
        rfl
      rw [hstep, ih]
      rfl

/-! ### Overlaid fields as a list -/

theorem eq_of_get? {fields : Fields α} (hkeys : base.keys = fields.keys) (hnodup : base.keys.Nodup)
    (h : ∀ key, base.get? key = fields.get? key) : base = fields := by
  induction base generalizing fields with
  | nil => exact (List.map_eq_nil_iff.1 hkeys.symm).symm
  | cons entry base ih =>
      cases fields with
      | nil => cases hkeys
      | cons first fields =>
          obtain ⟨k, value⟩ := entry
          obtain ⟨k', value'⟩ := first
          obtain ⟨rfl, hrest⟩ := List.cons.inj hkeys
          obtain ⟨hnot, hnodup⟩ := List.nodup_cons.1 hnodup
          have hvalue : value = value' := by simpa [get?_cons] using h k
          have heq : base = fields := by
            refine ih hrest hnodup fun key => ?_
            by_cases hk : k = key
            · subst hk
              have hnot' : k ∉ keys fields := fun hmem => hnot (hrest.symm ▸ hmem)
              rw [get?_eq_none_iff.2 hnot, get?_eq_none_iff.2 hnot']
            · simpa [get?_cons, hk] using h key
          rw [hvalue, heq]

theorem get?_append (fields more : Fields α) (key : Text) :
    get? (fields ++ more) key = (fields.get? key).or (more.get? key) :=
  List.lookup_append

theorem get?_map (f : Text → α → β) (fields : Fields α) (key : Text) :
    get? (fields.map fun entry => (entry.1, f entry.1 entry.2)) key =
      (fields.get? key).map (f key) := by
  induction fields with
  | nil => rfl
  | cons entry fields ih =>
      rw [List.map_cons, get?_cons, get?_cons, ih]
      split
      · next hk => rw [hk, Option.map_some]
      · rfl

theorem get?_filter (test : Text → Bool) (fields : Fields α) (key : Text) :
    get? (fields.filter (test ·.1)) key = if test key then fields.get? key else none := by
  induction fields with
  | nil => simp
  | cons entry fields ih =>
      rw [List.filter_cons, get?_cons]
      by_cases hk : entry.1 = key
      · subst hk
        by_cases htest : test entry.1
        · simp [htest, get?_cons]
        · simpa [htest] using ih
      · by_cases htest : test entry.1
        · simp [htest, get?_cons, hk, ih]
        · simp [htest, hk, ih]

/-- The entries of overlaid fields in order: the old ones with what is new under their keys, then
those with new keys. -/
theorem Overlaid.eq_append (h : Overlaid base more merged) (hbase : base.keys.Nodup)
    (hmore : more.keys.Nodup) :
    merged = (base.map fun entry => (entry.1, (more.get? entry.1).getD entry.2)) ++
      more.filter fun entry => decide (entry.1 ∉ base.keys) := by
  have hkeys : merged.keys = Fields.keys ((base.map fun entry =>
      (entry.1, (more.get? entry.1).getD entry.2)) ++
        more.filter fun entry => decide (entry.1 ∉ base.keys)) := by
    rw [h.keys]
    simp [Fields.keys, List.filter_map, Function.comp_def]
  refine eq_of_get? hkeys ?_ fun key => ?_
  · rw [h.keys]
    exact hbase.append (hmore.filter _) (by simp +contextual [List.Disjoint])
  · rw [h.value, get?_append, get?_map fun k value => (more.get? k).getD value,
      get?_filter fun k => decide (k ∉ base.keys)]
    cases hkey : base.get? key with
    | none =>
        have hnot := get?_eq_none_iff.1 hkey
        simp [hnot]
    | some value =>
        cases more.get? key with
        | none => rfl
        | some newer => rfl

end Restate.Fields

import Restate.Text.Basic

/-!
# Ordered fields

Keyed values in the order in which the keys first came. Storing under a key that is there replaces
the value in its place; a new key goes last.
-/

namespace Restate

/-- Values under keys, in the order of the keys. -/
abbrev Fields (α : Type) := List (Text × α)

namespace Fields

variable {α : Type}

def get? (fields : Fields α) (key : Text) : Option α :=
  List.lookup key fields

/-- The fields with a value stored under a key. -/
def put (key : Text) (value : α) : Fields α → Fields α
  | [] => [(key, value)]
  | (k, v) :: rest => if k = key then (key, value) :: rest else (k, v) :: put key value rest

/-- The first fields with all of the second stored in turn. -/
def overlay (fields more : Fields α) : Fields α :=
  more.foldl (fun fields entry => fields.put entry.1 entry.2) fields

/-- Fields from entries, of which the last under a key counts. -/
def ofEntries (entries : List (Text × α)) : Fields α :=
  overlay [] entries

def keys (fields : Fields α) : List Text :=
  fields.map (·.1)

/-- What was stored under a key is found there. -/
@[simp]
theorem get?_put_self (key : Text) (value : α) (fields : Fields α) :
    (fields.put key value).get? key = some value := by
  induction fields with
  | nil => simp [put, get?]
  | cons entry rest ih =>
    obtain ⟨k, v⟩ := entry
    by_cases hk : k = key
    · simp [put, hk, get?]
    · have : (key == k) = false := by simpa using fun h => hk h.symm
      simpa [put, hk, get?, List.lookup_cons, this] using ih

/-- Storing under one key leaves the values under all others. -/
theorem get?_put_of_ne {key other : Text} (h : other ≠ key) (value : α) (fields : Fields α) :
    (fields.put key value).get? other = fields.get? other := by
  have hother : (other == key) = false := by simpa using h
  induction fields with
  | nil => simp [put, get?, List.lookup_cons, hother]
  | cons entry rest ih =>
    obtain ⟨k, v⟩ := entry
    by_cases hk : k = key
    · subst hk
      simp [put, get?, List.lookup_cons, hother]
    · by_cases ho : other = k
      · subst ho
        simp [put, hk, get?]
      · have : (other == k) = false := by simpa using ho
        simpa [put, hk, get?, List.lookup_cons, this] using ih

@[simp]
theorem keys_cons (entry : Text × α) (fields : Fields α) :
    keys (entry :: fields) = entry.1 :: keys fields :=
  rfl

/-- Storing keeps every key in its place, and a new key goes last. -/
theorem keys_put (key : Text) (value : α) (fields : Fields α) :
    (fields.put key value).keys =
      if key ∈ fields.keys then fields.keys else fields.keys ++ [key] := by
  induction fields with
  | nil => rfl
  | cons entry rest ih =>
    obtain ⟨k, v⟩ := entry
    by_cases hk : k = key
    · simp [put, hk]
    · have hne : ¬ key = k := fun h => hk h.symm
      rw [put, if_neg hk, keys_cons, ih]
      by_cases hmem : key ∈ keys rest <;> simp [hmem, hne]

end Fields

end Restate

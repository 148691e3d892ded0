import Restate.Proofs.Restatement
import Restate.Proofs.Text.Numbered

/-!
# How literals are bound

Binding reads the tokens of a statement from left to right, and what it makes of them is a
derivation with a rule for each case (`Binds`). What is known of the parameters and of the tokens
that are left is shown by induction on it: each literal that is not marked has a parameter of its
own, named by a word that the statement does not use.
-/

namespace Restate

/-- Whether the word before a literal turns it into bytes or bits. -/
def Token.isMarked (previous : Option Token) (t : Token) : Bool :=
  previous.any fun p => p.kind.isBare && (p.upper == ['X'] || p.upper == ['B']) && p.touches t

/-- The literals that are not marked, behind a token. -/
def freeLiterals (previous : Option Token) : List Token → List Token
  | [] => []
  | t :: ts =>
    if t.kind = .string ∧ t.isMarked previous = false then t :: freeLiterals (some t) ts
    else freeLiterals (some t) ts

theorem freeLiterals_of_not_string {p : Option Token} {t : Token} (ts : List Token)
    (h : t.kind ≠ .string) : freeLiterals p (t :: ts) = freeLiterals (some t) ts := by
  simp [freeLiterals, h]

theorem freeLiterals_of_marked {p : Option Token} {t : Token} (ts : List Token)
    (h : t.isMarked p = true) : freeLiterals p (t :: ts) = freeLiterals (some t) ts := by
  simp [freeLiterals, h]

theorem freeLiterals_of_free {p : Option Token} {t : Token} (ts : List Token)
    (hstring : t.kind = .string) (h : t.isMarked p = false) :
    freeLiterals p (t :: ts) = t :: freeLiterals (some t) ts := by
  simp [freeLiterals, hstring, h]

/-- The name in a placeholder that has one. -/
def Token.name? (t : Token) : Option Text :=
  match t.kind, t.text with
  | .placeholder, ':' :: name => some name
  | _, _ => none

/-- The placeholders of a statement behind a token, with the keys one after another at the places of
the literals that are not marked. -/
def placed (previous : Option Token) (keys : List Text) : List Token → List Text
  | [] => []
  | t :: ts =>
    if t.kind = .string ∧ t.isMarked previous = false then
      keys.take 1 ++ placed (some t) (keys.drop 1) ts
    else t.name?.toList ++ placed (some t) keys ts

variable {naming : Parameter.Naming} {p : Option Token} {ts : List Token} {n : Nat}

theorem name?_of_kind {t : Token} (h : t.kind ≠ .placeholder) : t.name? = none := by
  unfold Token.name?
  split
  · next hkind _ => exact (h hkind).elim
  · rfl

theorem name?_of_bare {t : Token} (h : t.kind.isBare = true) : t.name? = none := by
  apply name?_of_kind
  rintro hkind
  simp [hkind, TokenKind.isBare] at h

theorem filterMap_cons_toList {α β : Type} (f : α → Option β) (a : α) (l : List α) :
    (a :: l).filterMap f = (f a).toList ++ l.filterMap f := by
  cases h : f a with
  | none => simp [h]
  | some b => simp [h]

theorem placed_of_kept {t : Token} (keys : List Text) (ts : List Token)
    (h : t.kind ≠ .string ∨ t.isMarked p = true) :
    placed p keys (t :: ts) = t.name?.toList ++ placed (some t) keys ts := by
  rw [placed, if_neg]
  rintro ⟨hstring, hmarked⟩
  rcases h with h | h
  · exact h hstring
  · simp [hmarked] at h

theorem placed_of_free {t : Token} (key : Text) (keys : List Text) (ts : List Token)
    (hstring : t.kind = .string) (h : t.isMarked p = false) :
    placed p (key :: keys) (t :: ts) = key :: placed (some t) keys ts := by
  simp [placed, hstring, h]

/-- A literal at the head of the tokens is not marked by the token before them. -/
def HeadFree (p : Option Token) (ts : List Token) : Prop :=
  ∀ t ∈ ts.head?, t.kind = .string → t.isMarked p = false

theorem isMarked_of_not_bare {p t : Token} (h : p.kind.isBare = false) :
    t.isMarked (some p) = false := by
  simp [Token.isMarked, h]

theorem HeadFree.of_string {p : Token} (h : p.kind = .string) (ts : List Token) :
    HeadFree (some p) ts := by
  intro t _ _
  exact isMarked_of_not_bare (by simp [h, TokenKind.isBare])

namespace Introducer

/-- Which literals are marked is what the word before them says. -/
theorem isMarked_iff {p t : Token} (ht : t.kind = .string) :
    t.isMarked (some p) = true ↔ before? p t = some .bytes ∨ before? p t = some .bits := by
  unfold before? Token.isMarked
  rw [Option.any_some]
  by_cases hbare : p.kind.isBare = true
  · by_cases htouches : p.touches t = true
    · rw [if_pos ⟨ht, hbare, htouches⟩, hbare, htouches]
      unfold ofUpper?
      split
      · next hx => simp [hx]
      · split
        · next hb => simp [hb]
        · next hx hb =>
            simp only [Bool.true_and, Bool.and_true, Bool.or_eq_true, beq_iff_eq, hx, hb, or_self,
              false_iff, not_or]
            split
            · simp
            · simp
    · simp [htouches]
  · simp [hbare]

theorem isMarked_eq_false {p t : Token} (ht : t.kind = .string) (hbytes : before? p t ≠ some .bytes)
    (hbits : before? p t ≠ some .bits) : t.isMarked (some p) = false := by
  rw [← Bool.not_eq_true, isMarked_iff ht]
  rintro (h | h)
  · exact hbytes h
  · exact hbits h

/-- A literal that comes next is not marked by a token that introduces none. -/
theorem headFree_of_before {p t : Token} (h : before? p t = none) (ts : List Token) :
    HeadFree (some p) (t :: ts) := by
  intro u hu hstring
  obtain rfl : u = t := by simpa using hu.symm
  exact isMarked_eq_false hstring (by simp [h]) (by simp [h])

theorem kind_of_before {p t : Token} {introducer : Introducer}
    (h : before? p t = some introducer) : t.kind = .string := by
  unfold before? at h
  split at h
  · next hcond => exact hcond.1
  · simp at h

theorem marked_of_bytes {p t : Token} (h : before? p t = some .bytes) :
    t.isMarked (some p) = true :=
  (isMarked_iff (kind_of_before h)).2 (.inl h)

theorem marked_of_bits {p t : Token} (h : before? p t = some .bits) :
    t.isMarked (some p) = true :=
  (isMarked_iff (kind_of_before h)).2 (.inr h)

theorem free_of_charset {p t : Token} (h : before? p t = some .charset) :
    t.isMarked (some p) = false :=
  isMarked_eq_false (kind_of_before h) (by simp [h]) (by simp [h])

theorem bare_of_before {p t : Token} {introducer : Introducer}
    (h : before? p t = some introducer) : p.kind.isBare = true := by
  unfold before? at h
  split at h
  · next hcond => exact hcond.2.1
  · simp at h

theorem not_string_of_before {p t : Token} {introducer : Introducer}
    (h : before? p t = some introducer) : p.kind ≠ .string := by
  intro hstring
  have := bare_of_before h
  simp [hstring, TokenKind.isBare] at this

theorem freeLiterals_of_bytes {t u : Token} (ts : List Token) (h : before? t u = some .bytes) :
    freeLiterals p (t :: u :: ts) = freeLiterals (some u) ts := by
  rw [freeLiterals_of_not_string _ (not_string_of_before h),
    freeLiterals_of_marked _ (marked_of_bytes h)]

theorem freeLiterals_of_bits {t u : Token} (ts : List Token) (h : before? t u = some .bits) :
    freeLiterals p (t :: u :: ts) = freeLiterals (some u) ts := by
  rw [freeLiterals_of_not_string _ (not_string_of_before h),
    freeLiterals_of_marked _ (marked_of_bits h)]

theorem freeLiterals_of_charset {t u : Token} (ts : List Token)
    (h : before? t u = some .charset) :
    freeLiterals p (t :: u :: ts) = u :: freeLiterals (some u) ts := by
  rw [freeLiterals_of_not_string _ (not_string_of_before h),
    freeLiterals_of_free _ (kind_of_before h) (free_of_charset h)]

end Introducer

namespace Parameter

theorem bindFrom_string {t : Token} (h : t.kind = .string) :
    bindFrom naming n (t :: ts) =
      bindLiteral naming n t.start t fun n => bindFrom naming n ts := by
  cases ts with
  | nil => simp [bindFrom, h]
  | cons u ts => simp [bindFrom, h]

theorem bindFrom_last {t : Token} (h : t.kind ≠ .string) :
    bindFrom naming n [t] = .ok ⟨[t], []⟩ := by
  simp [bindFrom, h]

theorem bindFrom_pair {t u : Token} (h : t.kind ≠ .string) :
    bindFrom naming n (t :: u :: ts) =
      match Introducer.before? t u with
      | some .bytes => (bindFrom naming n ts).map (Bound.after (byteLiteral t u))
      | some .bits =>
        match bitNumeral u.value with
        | .error _ => .error (.refuse (.invalidBitLiteral u.text))
        | .ok text => (bindFrom naming n ts).map (Bound.after [⟨.number, text, t.start, u.stop⟩])
      | some .charset => bindLiteral naming n t.start u fun n => bindFrom naming n ts
      | none => (bindFrom naming n (u :: ts)).map (Bound.after [t]) := by
  cases hbefore : Introducer.before? t u with
  | none => rw [bindFrom, if_neg h, hbefore]
  | some introducer =>
      cases introducer with
      | bytes => rw [bindFrom, if_neg h, hbefore]
      | bits =>
          cases hbits : bitNumeral u.value with
          | error fault => simp [bindFrom, h, hbefore, hbits]
          | ok text => simp [bindFrom, h, hbefore, hbits]
      | charset => rw [bindFrom, if_neg h, hbefore]

theorem bindLiteral_ok {start : Nat} {literal : Token} {following : Nat → Except Error Bound}
    {bound : Bound} (h : bindLiteral naming n start literal following = .ok bound) :
    ∃ rest, following (naming.next n + 1) = .ok rest ∧
      bound = Bound.afterLiteral start (naming.name (naming.next n)) literal rest := by
  unfold bindLiteral at h
  split at h
  · simp at h
  · obtain ⟨rest, hrest, rfl⟩ := except_map_ok.1 h
    exact ⟨rest, hrest, rfl⟩

namespace Naming

theorem name_injective (naming : Naming) : Function.Injective naming.name := by
  intro m n h
  exact Text.numeral_injective (List.append_cancel_left h)

theorem le_free (naming : Naming) (n tries : Nat) : n ≤ naming.free n tries := by
  induction tries generalizing n with
  | zero => exact Nat.le_refl n
  | succ tries ih =>
      rw [free]
      split
      · exact Nat.le_trans (Nat.le_succ n) (ih (n + 1))
      · exact Nat.le_refl n

/-- If the tries are used up, all the names tried are taken. -/
theorem taken_of_free_taken (naming : Naming) {n tries : Nat}
    (h : naming.name (naming.free n tries) ∈ naming.taken) :
    ∀ i ≤ tries, naming.name (n + i) ∈ naming.taken := by
  induction tries generalizing n with
  | zero =>
      intro i hi
      obtain rfl : i = 0 := by omega
      exact h
  | succ tries ih =>
      rw [free] at h
      split at h
      · next htaken =>
          intro i hi
          cases i with
          | zero => simpa using htaken
          | succ i =>
              have := ih h i (by omega)
              rwa [show n + (i + 1) = n + 1 + i by omega]
      · next hfree => exact (hfree (by simpa using h)).elim

theorem le_next (naming : Naming) (n : Nat) : n ≤ naming.next n :=
  le_free naming n _

theorem next_not_taken (naming : Naming) (n : Nat) :
    naming.name (naming.next n) ∉ naming.taken := by
  intro h
  obtain ⟨i, hi, hfree⟩ := Text.exists_le_not_mem (name_injective naming) naming.taken n
  exact hfree (taken_of_free_taken naming h i hi)

end Naming

/-- What binding makes of the tokens behind a token, if `n` is the least number that may still be
given. -/
inductive Binds (naming : Naming) : Nat → Option Token → List Token → Bound → Prop where
  | nil {n : Nat} {p : Option Token} : Binds naming n p [] ⟨[], []⟩
  /-- A token that stays. -/
  | keep {n : Nat} {p : Option Token} {t : Token} {ts : List Token} {bound : Bound} :
      t.kind ≠ .string → Binds naming n (some t) ts bound →
      Binds naming n p (t :: ts) (bound.after [t])
  /-- A literal. -/
  | literal {n : Nat} {p : Option Token} {t : Token} {ts : List Token} {bound : Bound} :
      t.kind = .string → t.isMarked p = false →
      Binds naming (naming.next n + 1) (some t) ts bound →
      Binds naming n p (t :: ts)
        (bound.afterLiteral t.start (naming.name (naming.next n)) t)
  /-- A literal behind the name of its character set. -/
  | charset {n : Nat} {p : Option Token} {t u : Token} {ts : List Token} {bound : Bound} :
      t.kind ≠ .string → Introducer.before? t u = some .charset →
      Binds naming (naming.next n + 1) (some u) ts bound →
      Binds naming n p (t :: u :: ts)
        (bound.afterLiteral t.start (naming.name (naming.next n)) u)
  /-- Bytes. -/
  | bytes {n : Nat} {p : Option Token} {t u : Token} {ts : List Token} {bound : Bound} :
      t.kind ≠ .string → Introducer.before? t u = some .bytes →
      Binds naming n (some u) ts bound →
      Binds naming n p (t :: u :: ts) (bound.after (byteLiteral t u))
  /-- A number in bits. -/
  | bits {n : Nat} {p : Option Token} {t u : Token} {ts : List Token} {bound : Bound}
      {text : Text} :
      t.kind ≠ .string → Introducer.before? t u = some .bits → bitNumeral u.value = .ok text →
      Binds naming n (some u) ts bound →
      Binds naming n p (t :: u :: ts) (bound.after [⟨.number, text, t.start, u.stop⟩])

theorem binds_of_bindFrom {bound : Bound} (hfree : HeadFree p ts)
    (h : bindFrom naming n ts = .ok bound) : Binds naming n p ts bound := by
  fun_induction bindFrom naming n ts generalizing p bound with
  | case1 n =>
      cases h
      exact .nil
  | case2 n t ts hstring ih =>
      obtain ⟨bound, hbound, rfl⟩ := bindLiteral_ok h
      exact .literal hstring (hfree t rfl hstring) (ih _ (HeadFree.of_string hstring ts) hbound)
  | case3 n t hstring =>
      cases h
      exact .keep hstring .nil
  | case4 n t hstring u rest hbefore ih =>
      obtain ⟨bound, hbound, rfl⟩ := except_map_ok.1 h
      have hu := Introducer.kind_of_before hbefore
      exact .bytes hstring hbefore (ih (HeadFree.of_string hu rest) hbound)
  | case5 n t hstring u rest hbefore e hbits => simp at h
  | case6 n t hstring u rest hbefore text hbits ih =>
      obtain ⟨bound, hbound, rfl⟩ := except_map_ok.1 h
      have hu := Introducer.kind_of_before hbefore
      exact .bits hstring hbefore hbits (ih (HeadFree.of_string hu rest) hbound)
  | case7 n t hstring u rest hbefore ih =>
      obtain ⟨bound, hbound, rfl⟩ := bindLiteral_ok h
      have hu := Introducer.kind_of_before hbefore
      exact .charset hstring hbefore (ih _ (HeadFree.of_string hu rest) hbound)
  | case8 n t hstring u rest hbefore ih =>
      obtain ⟨bound, hbound, rfl⟩ := except_map_ok.1 h
      exact .keep hstring (ih (Introducer.headFree_of_before hbefore rest) hbound)

/-- What binding makes of a whole statement. -/
theorem binds_of_extract {stem : Text} {bound : Bound} (h : extract stem ts = .ok bound) :
    Binds (Naming.ofTokens stem ts) 0 none ts bound := by
  refine binds_of_bindFrom ?_ h
  intro t _ _
  rfl

namespace Binds

variable {bound : Bound}

/-- The values bound are the contents of the literals that are not marked, in order. -/
theorem values (h : Binds naming n p ts bound) :
    bound.params.map Prod.snd = (freeLiterals p ts).map Token.value := by
  induction h with
  | nil => rfl
  | keep hstring _ ih =>
      rw [freeLiterals_of_not_string _ hstring]
      exact ih
  | literal hstring hmarked _ ih =>
      rw [freeLiterals_of_free _ hstring hmarked]
      simp [Bound.afterLiteral, ih]
  | charset _ hbefore _ ih =>
      rw [Introducer.freeLiterals_of_charset _ hbefore]
      simp [Bound.afterLiteral, ih]
  | bytes _ hbefore _ ih =>
      rw [Introducer.freeLiterals_of_bytes _ hbefore]
      exact ih
  | bits _ hbefore _ _ ih =>
      rw [Introducer.freeLiterals_of_bits _ hbefore]
      exact ih

/-- The placeholders of the tokens that are left are those of the statement, and the parameters at
the places of their literals. -/
theorem names (h : Binds naming n p ts bound) :
    bound.tokens.filterMap Token.name? = placed p bound.params.keys ts := by
  induction h with
  | nil => rfl
  | keep hstring _ ih =>
      rw [placed_of_kept _ _ (.inl hstring)]
      exact (filterMap_cons_toList _ _ _).trans (congrArg _ ih)
  | literal hstring hmarked _ ih =>
      rw [Bound.afterLiteral, Fields.keys_cons, placed_of_free _ _ _ hstring hmarked, ← ih]
      rfl
  | charset hstring hbefore _ ih =>
      have hnone := name?_of_bare (Introducer.bare_of_before hbefore)
      rw [Bound.afterLiteral, Fields.keys_cons, placed_of_kept _ _ (.inl hstring), hnone,
        placed_of_free _ _ _ (Introducer.kind_of_before hbefore)
          (Introducer.free_of_charset hbefore), ← ih]
      rfl
  | @bytes n p t u ts bound hstring hbefore _ ih =>
      have hbare := Introducer.bare_of_before hbefore
      have hu := Introducer.kind_of_before hbefore
      have hmarker : Token.name? { t with text := ['X'] } = none := name?_of_bare hbare
      have hliteral : Token.name? { u with text := quoteString u.value } = none :=
        name?_of_kind (by simp [hu])
      rw [placed_of_kept _ _ (.inl hstring), name?_of_bare hbare,
        placed_of_kept _ _ (.inr (Introducer.marked_of_bytes hbefore)),
        name?_of_kind (by simp [hu]), Bound.after, byteLiteral, List.cons_append, List.cons_append,
        filterMap_cons_toList, filterMap_cons_toList, hmarker, hliteral]
      exact ih
  | @bits n p t u ts bound text hstring hbefore _ _ ih =>
      have hu := Introducer.kind_of_before hbefore
      rw [placed_of_kept _ _ (.inl hstring), name?_of_bare (Introducer.bare_of_before hbefore),
        placed_of_kept _ _ (.inr (Introducer.marked_of_bits hbefore)),
        name?_of_kind (by simp [hu])]
      exact ih

/-- The parameters are named by increasing numbers whose names the statement does not use. -/
theorem keys (h : Binds naming n p ts bound) :
    ∃ numbers : List Nat, bound.params.keys = numbers.map naming.name ∧
      numbers.Pairwise (· < ·) ∧ ∀ k ∈ numbers, n ≤ k ∧ naming.name k ∉ naming.taken := by
  -- both rules that give a name take the next number and go on behind it
  have hliteral : ∀ {n start : Nat} {t : Token} {bound : Bound}, (∃ numbers : List Nat,
      bound.params.keys = numbers.map naming.name ∧ numbers.Pairwise (· < ·) ∧
        ∀ k ∈ numbers, naming.next n + 1 ≤ k ∧ naming.name k ∉ naming.taken) →
      ∃ numbers : List Nat,
        (bound.afterLiteral start (naming.name (naming.next n)) t).params.keys =
          numbers.map naming.name ∧ numbers.Pairwise (· < ·) ∧
        ∀ k ∈ numbers, n ≤ k ∧ naming.name k ∉ naming.taken := by
    rintro n start t bound ⟨numbers, hkeys, hsorted, hnumbers⟩
    have hle := Naming.le_next naming n
    refine ⟨naming.next n :: numbers, ?_, ?_, ?_⟩
    · rw [Bound.afterLiteral, Fields.keys_cons, hkeys, List.map_cons]
    · refine List.pairwise_cons.2 ⟨?_, hsorted⟩
      intro k hk
      exact (hnumbers k hk).1
    · intro k hk
      rcases List.mem_cons.1 hk with rfl | hk
      · exact ⟨hle, Naming.next_not_taken naming n⟩
      · exact ⟨by have := (hnumbers k hk).1; omega, (hnumbers k hk).2⟩
  induction h with
  | nil => exact ⟨[], rfl, .nil, by simp⟩
  | keep _ _ ih => exact ih
  | literal _ _ _ ih => exact hliteral ih
  | charset _ _ _ ih => exact hliteral ih
  | bytes _ _ _ ih => exact ih
  | bits _ _ _ _ ih => exact ih

/-- No name is given twice, and none that the statement uses. -/
theorem keys_fresh (h : Binds naming n p ts bound) :
    bound.params.keys.Nodup ∧ ∀ key ∈ bound.params.keys, key ∉ naming.taken := by
  obtain ⟨numbers, hkeys, hsorted, hnumbers⟩ := h.keys
  rw [hkeys]
  constructor
  · refine List.Nodup.map (Naming.name_injective naming) ?_
    exact hsorted.imp fun h => Nat.ne_of_lt h
  · intro key hkey
    obtain ⟨k, hk, rfl⟩ := List.mem_map.1 hkey
    exact (hnumbers k hk).2

end Binds

end Parameter

end Restate

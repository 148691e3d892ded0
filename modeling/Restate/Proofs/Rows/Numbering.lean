import Mathlib.Data.Nat.Nth
import Restate.Proofs.Rows.Spans
import Restate.Proofs.Rows.Unbound

/-!
# The numbers of parameters

A parameter is numbered by the next number whose name the statement does not use, so the literals of
a statement are numbered by the numbers with free names from the least one on, in order. Main
statement: `Parameter.extract_numbered`.
-/

namespace Restate

theorem mem_freeLiterals {p : Option Token} {t : Token} {ts : List Token}
    (h : t ∈ freeLiterals p ts) : t ∈ ts ∧ t.kind = .string := by
  induction ts generalizing p with
  | nil => simp [freeLiterals] at h
  | cons u ts ih =>
      rw [freeLiterals] at h
      split at h
      · next hfree =>
          rcases List.mem_cons.1 h with rfl | h
          · exact ⟨List.mem_cons_self, hfree.1⟩
          · exact ⟨List.mem_cons_of_mem u (ih h).1, (ih h).2⟩
      · exact ⟨List.mem_cons_of_mem u (ih h).1, (ih h).2⟩

theorem decodeString?_eq {t : Token} (hstring : t.kind = .string) (hne : t.text ≠ []) :
    decodeString? t.text = some t.value := by
  obtain ⟨quote, s, htext⟩ := List.exists_cons_of_ne_nil hne
  simp [Token.value, hstring, htext, decodeString?]

namespace Parameter

/-- The name with a number is no placeholder's in the statement. -/
def Unused (stem : Text) (tokens : List Token) (n : Nat) : Prop :=
  ∀ t ∈ tokens, t.name? ≠ some (stem ++ Text.numeral n)

/-- The name with the unused number before which there are `i` more. -/
noncomputable def unusedName (stem : Text) (tokens : List Token) (i : Nat) : Text :=
  stem ++ Text.numeral (Nat.nth (Unused stem tokens) i)

namespace Naming

variable {naming : Naming} {n k tries : Nat}

/-- The name with the number is not taken. -/
def IsFree (naming : Naming) (n : Nat) : Prop :=
  naming.name n ∉ naming.taken

instance (naming : Naming) : DecidablePred naming.IsFree :=
  fun n => inferInstanceAs (Decidable (naming.name n ∉ naming.taken))

theorem not_isFree_of_lt_free (hle : n ≤ k) (hlt : k < naming.free n tries) :
    ¬ naming.IsFree k := by
  induction tries generalizing n with
  | zero => exact absurd hlt (Nat.not_lt.2 hle)
  | succ tries ih =>
      rw [free] at hlt
      split at hlt
      · next htaken =>
          rcases Nat.eq_or_lt_of_le hle with rfl | hlt'
          · simpa [IsFree] using htaken
          · exact ih hlt' hlt
      · exact absurd hlt (Nat.not_lt.2 hle)

/-- The numbers passed over are not free. -/
theorem count_next (naming : Naming) (n : Nat) :
    Nat.count naming.IsFree (naming.next n) = Nat.count naming.IsFree n := by
  obtain ⟨d, hd⟩ := Nat.exists_eq_add_of_le (le_next naming n)
  have hnone : Nat.count (fun k => naming.IsFree (n + k)) d = 0 := by
    apply Nat.count_iff_forall_not.2
    intro k hk
    exact not_isFree_of_lt_free (Nat.le_add_right n k) (show n + k < naming.next n by omega)
  rw [hd, Nat.count_add, hnone, Nat.add_zero]

theorem next_eq_nth (naming : Naming) (n : Nat) :
    naming.next n = Nat.nth naming.IsFree (Nat.count naming.IsFree n) := by
  rw [← count_next, Nat.nth_count (next_not_taken naming n)]

theorem count_next_succ (naming : Naming) (n : Nat) :
    Nat.count naming.IsFree (naming.next n + 1) = Nat.count naming.IsFree n + 1 := by
  have hfree : naming.IsFree (naming.next n) := next_not_taken naming n
  rw [Nat.count_succ, if_pos hfree, count_next]

theorem isFree_ofTokens (stem : Text) (tokens : List Token) :
    (ofTokens stem tokens).IsFree = Unused stem tokens := by
  funext n
  refine propext ?_
  have htaken : (ofTokens stem tokens).taken = tokens.filterMap Token.name? := rfl
  rw [IsFree, htaken, List.mem_filterMap]
  simp [Unused, name, ofTokens]

end Naming

namespace Binds

variable {naming : Naming} {n : Nat} {p : Option Token} {ts : List Token} {bound : Bound}

/-- The parameters are those of the literals in order, numbered by the free numbers in order. -/
theorem params (h : Binds naming n p ts bound) :
    bound.params = (freeLiterals p ts).mapIdx fun i literal =>
      (naming.name (Nat.nth naming.IsFree (Nat.count naming.IsFree n + i)), literal.value) := by
  have hliteral : ∀ {n start : Nat} {t : Token} {ts : List Token} {bound : Bound},
      bound.params = ts.mapIdx (fun i literal => (naming.name (Nat.nth naming.IsFree
        (Nat.count naming.IsFree (naming.next n + 1) + i)), literal.value)) →
      (bound.afterLiteral start (naming.name (naming.next n)) t).params =
        (t :: ts).mapIdx fun i literal =>
          (naming.name (Nat.nth naming.IsFree (Nat.count naming.IsFree n + i)), literal.value) := by
    intro n start t ts bound hparams
    simp only [Bound.afterLiteral, hparams, List.mapIdx_cons, Nat.add_zero, ← Naming.next_eq_nth,
      Naming.count_next_succ, Nat.add_assoc, Nat.add_comm 1]
  induction h with
  | nil => rfl
  | keep hstring _ ih =>
      rw [freeLiterals_of_not_string _ hstring]
      exact ih
  | literal hstring hmarked _ ih =>
      rw [freeLiterals_of_free _ hstring hmarked]
      exact hliteral ih
  | charset _ hbefore _ ih =>
      rw [Introducer.freeLiterals_of_charset _ hbefore]
      exact hliteral ih
  | bytes _ hbefore _ ih =>
      rw [Introducer.freeLiterals_of_bytes _ hbefore]
      exact ih
  | bits _ hbefore _ _ ih =>
      rw [Introducer.freeLiterals_of_bits _ hbefore]
      exact ih

/-- A placeholder that stops where the literal does has the name of its parameter. -/
theorem placeholders (h : Binds naming n p ts bound) :
    List.Forall₂ (fun literal param =>
        ∃ start, (⟨.placeholder, ':' :: param.1, start, literal.stop⟩ : Token) ∈ bound.tokens)
      (freeLiterals p ts) bound.params := by
  have hbehind : ∀ (head : List Token) {literals : List Token} {params : Fields Text}
      {us : List Token},
      List.Forall₂ (fun literal param => ∃ start,
        (⟨.placeholder, ':' :: param.1, start, literal.stop⟩ : Token) ∈ us) literals params →
      List.Forall₂ (fun literal param => ∃ start,
        (⟨.placeholder, ':' :: param.1, start, literal.stop⟩ : Token) ∈ head ++ us)
        literals params := by
    intro head literals params us hus
    refine hus.imp ?_
    rintro literal param ⟨start, hmem⟩
    exact ⟨start, List.mem_append_right _ hmem⟩
  induction h with
  | nil => exact .nil
  | keep hstring _ ih =>
      rw [freeLiterals_of_not_string _ hstring]
      exact hbehind _ ih
  | literal hstring hmarked _ ih =>
      rw [freeLiterals_of_free _ hstring hmarked]
      exact .cons ⟨_, List.mem_cons_self⟩ (hbehind [_] ih)
  | charset _ hbefore _ ih =>
      rw [Introducer.freeLiterals_of_charset _ hbefore]
      exact .cons ⟨_, List.mem_cons_self⟩ (hbehind [_] ih)
  | bytes _ hbefore _ ih =>
      rw [Introducer.freeLiterals_of_bytes _ hbefore]
      exact hbehind _ ih
  | bits _ hbefore _ _ ih =>
      rw [Introducer.freeLiterals_of_bits _ hbefore]
      exact hbehind _ ih

end Binds

theorem bindFrom_error_eq {naming : Naming} {n : Nat} {ts : List Token} {e : Error}
    (hbits : ¬ HasBitsWithoutValue ts) (h : bindFrom naming n ts = .error e) :
    e = .refuse .positionalPlaceholders := by
  fun_induction bindFrom naming n ts with
  | case1 => simp at h
  | case2 n t ts hstring ih =>
      rw [hasBitsWithoutValue_of_string hstring] at hbits
      rcases bindLiteral_error.1 h with ⟨-, rfl⟩ | ⟨-, h⟩
      · rfl
      · exact ih _ hbits h
  | case3 => simp at h
  | case4 n t hstring u rest hbefore ih =>
      rw [hasBitsWithoutValue_cons, hasBitsWithoutValue_of_string
        (Introducer.kind_of_before hbefore), not_or] at hbits
      exact ih hbits.2 (except_map_error.1 h)
  | case5 n t hstring u rest hbefore fault hfault =>
      rw [hasBitsWithoutValue_cons, bitsWithoutValue_iff] at hbits
      exact absurd (.inl ⟨hbefore, fault, hfault⟩) hbits
  | case6 n t hstring u rest hbefore text hvalue ih =>
      rw [hasBitsWithoutValue_cons, hasBitsWithoutValue_of_string
        (Introducer.kind_of_before hbefore), not_or] at hbits
      exact ih hbits.2 (except_map_error.1 h)
  | case7 n t hstring u rest hbefore ih =>
      rw [hasBitsWithoutValue_cons, hasBitsWithoutValue_of_string
        (Introducer.kind_of_before hbefore), not_or] at hbits
      rcases bindLiteral_error.1 h with ⟨-, rfl⟩ | ⟨-, h⟩
      · rfl
      · exact ih _ hbits.2 h
  | case8 n t hstring u rest hbefore ih =>
      rw [hasBitsWithoutValue_cons, not_or] at hbits
      exact ih hbits.2 (except_map_error.1 h)

/-- Without marked literals that spell no number only placeholders without names are in the way. -/
theorem extract_error_eq_iff (stem : Text) {tokens : List Token} {e : Error}
    (hbits : ¬ HasBitsWithoutValue tokens) :
    extract stem tokens = .error e ↔
      e = .refuse .positionalPlaceholders ∧ freeLiterals none tokens ≠ [] ∧
        ∃ t ∈ tokens, t.kind = .placeholder ∧ t.text = ['?'] := by
  have hiff : (∃ e, extract stem tokens = .error e) ↔ Unbindable tokens := extract_error_iff stem
  constructor
  · intro h
    obtain ⟨hpositional, hfree⟩ := (hiff.1 ⟨e, h⟩).resolve_left hbits
    exact ⟨bindFrom_error_eq hbits h, hfree, hpositional⟩
  · rintro ⟨rfl, hfree, hpositional⟩
    obtain ⟨e, h⟩ := hiff.2 (.inr ⟨hpositional, hfree⟩)
    rw [h, bindFrom_error_eq hbits h]

theorem extract_params {stem : Text} {tokens : List Token} {bound : Bound}
    (h : extract stem tokens = .ok bound) :
    bound.params = (freeLiterals none tokens).mapIdx
      fun i literal => (unusedName stem tokens i, literal.value) := by
  have hname : ∀ i, (Naming.ofTokens stem tokens).name (Nat.nth
      (Naming.ofTokens stem tokens).IsFree i) = unusedName stem tokens i := by
    intro i
    rw [Naming.isFree_ofTokens]
    rfl
  simp only [(binds_of_extract h).params, Nat.count_zero, Nat.zero_add, hname]

/-- The literals that are not marked are bound in order: each to its contents, under the name with
the next number that no placeholder of the statement has, and the token that takes its place has
that name. Unless a literal is marked as bits and spells no number, binding fails just if there are
any beside a placeholder without a name. -/
theorem extract_numbered {sql : Text} {tokens : List Token} (stem : Text)
    (htokens : tokenize sql = .ok tokens) :
    (∀ bound, extract stem tokens = .ok bound →
      bound.params = (freeLiterals none tokens).mapIdx
          (fun i literal => (unusedName stem tokens i, literal.value)) ∧
        (∀ literal ∈ freeLiterals none tokens,
          decodeString? literal.text = some literal.value) ∧
        (bound.params.keys.Nodup ∧
          ∀ key ∈ bound.params.keys, ∀ t ∈ tokens, t.name? ≠ some key) ∧
        ∀ i literal, (freeLiterals none tokens)[i]? = some literal → ∃ start,
          (bound.tokens.filter fun t => t.stop == literal.stop) =
            [⟨.placeholder, ':' :: unusedName stem tokens i, start, literal.stop⟩]) ∧
      (¬ HasBitsWithoutValue tokens → ∀ e, extract stem tokens = .error e ↔
        e = .refuse .positionalPlaceholders ∧ freeLiterals none tokens ≠ [] ∧
          ∃ t ∈ tokens, t.kind = .placeholder ∧ t.text = ['?']) := by
  obtain ⟨-, htiles, -⟩ := tiles_of_tokenize htokens
  constructor
  · intro bound hbound
    have hbinds := binds_of_extract hbound
    obtain ⟨hnodup, hfresh⟩ := hbinds.keys_fresh
    refine ⟨extract_params hbound, ?_, ⟨hnodup, ?_⟩, ?_⟩
    · intro literal hliteral
      obtain ⟨hmem, hstring⟩ := mem_freeLiterals hliteral
      exact decodeString?_eq hstring (htiles.nonempty literal hmem)
    · intro key hkey t ht hname
      exact hfresh key hkey (List.mem_filterMap.2 ⟨t, ht, hname⟩)
    · intro i literal hliteral
      obtain ⟨hi, rfl⟩ := List.getElem?_eq_some_iff.1 hliteral
      have hlength : i < bound.params.length := hbinds.placeholders.length_eq ▸ hi
      obtain ⟨start, hmem⟩ := List.Forall₂.get hbinds.placeholders hi hlength
      have hparam : bound.params[i].1 = unusedName stem tokens i := by
        simp [extract_params hbound]
      rw [List.get_eq_getElem, List.get_eq_getElem, hparam] at hmem
      exact ⟨start, (hbinds.spans htiles).filter_stop hmem⟩
  · intro hbits e
    exact extract_error_eq_iff stem hbits

/-- A name that a placeholder behind the literals has is passed over. -/
theorem extract_numbered_apart :
    ∃ tokens bound, tokenize "SELECT 'a', x'00', N'b', :p1" = .ok tokens ∧
      extract "p" tokens = .ok bound ∧
      bound.params = ([("p0", "a"), ("p2", "b")] : List (Text × Text)) ∧
      ((freeLiterals none tokens).mapIdx fun i literal =>
          (unusedName "p" tokens i, literal.value)) =
        ([("p0", "a"), ("p2", "b")] : List (Text × Text)) ∧
      bound.params.keys.Nodup := by
  obtain ⟨tokens, htokens, h⟩ := exists_of_passes (show passes (fun tokens => passes (fun bound =>
      bound.params == ([("p0", "a"), ("p2", "b")] : List (Text × Text))) (extract "p" tokens))
      (tokenize "SELECT 'a', x'00', N'b', :p1") = true by decide +kernel)
  obtain ⟨bound, hbound, hparams⟩ := exists_of_passes h
  have hparams := eq_of_beq hparams
  obtain ⟨hnumbered, -, ⟨hnodup, -⟩, -⟩ := (extract_numbered "p" htokens).1 bound hbound
  exact ⟨tokens, bound, htokens, hbound, hparams, hnumbered.symm.trans hparams, hnodup⟩

end Parameter

end Restate

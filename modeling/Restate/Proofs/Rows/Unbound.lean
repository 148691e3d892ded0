import Restate.Proofs.Refusal
import Restate.Proofs.Rows.Binding

/-!
# Literals that cannot be bound

Two things keep the literals of a statement from being bound: one of them is marked as a number in
bits and spells none, or some are to be bound where the statement has placeholders without names.
Main statement: nothing else does (`Parameter.extract_error_iff`).
-/

namespace Restate

/-- A literal is marked as a number in bits, and spells none. -/
def BitsWithoutValue (marker literal : Token) : Prop :=
  Introducer.before? marker literal = some .bits ∧ ∀ text, bitNumeral literal.value ≠ .ok text

/-- A literal of the statement is marked as a number in bits, and spells none. -/
def HasBitsWithoutValue (tokens : List Token) : Prop :=
  ∃ marker literal, [marker, literal] <:+: tokens ∧ BitsWithoutValue marker literal

/-- The literals of the statement cannot be bound. -/
def Unbindable (tokens : List Token) : Prop :=
  HasBitsWithoutValue tokens ∨
    (∃ t ∈ tokens, t.kind = .placeholder ∧ t.text = ['?']) ∧ freeLiterals none tokens ≠ []

variable {p : Option Token} {t u : Token} {ts : List Token} {n : Nat}

theorem bitsWithoutValue_iff :
    BitsWithoutValue t u ↔
      Introducer.before? t u = some .bits ∧ ∃ fault, bitNumeral u.value = .error fault := by
  unfold BitsWithoutValue
  cases bitNumeral u.value with
  | error fault => simp
  | ok text => simp

theorem not_hasBitsWithoutValue_nil : ¬ HasBitsWithoutValue [] := by
  rintro ⟨marker, literal, hsub, -⟩
  simp at hsub

theorem not_hasBitsWithoutValue_singleton : ¬ HasBitsWithoutValue [t] := by
  rintro ⟨marker, literal, hsub, -⟩
  have := hsub.length_le
  simp at this

theorem hasBitsWithoutValue_cons :
    HasBitsWithoutValue (t :: u :: ts) ↔
      BitsWithoutValue t u ∨ HasBitsWithoutValue (u :: ts) := by
  unfold HasBitsWithoutValue
  have hsub : ∀ marker literal : Token, [marker, literal] <:+: t :: u :: ts ↔
      (marker = t ∧ literal = u) ∨ [marker, literal] <:+: u :: ts := by
    intro marker literal
    rw [List.infix_cons_iff]
    simp
  simp only [hsub]
  constructor
  · rintro ⟨marker, literal, ⟨rfl, rfl⟩ | hsub, hbits⟩
    · exact .inl hbits
    · exact .inr ⟨marker, literal, hsub, hbits⟩
  · rintro (hbits | ⟨marker, literal, hsub, hbits⟩)
    · exact ⟨t, u, .inl ⟨rfl, rfl⟩, hbits⟩
    · exact ⟨marker, literal, .inr hsub, hbits⟩

/-- A literal marks none. -/
theorem hasBitsWithoutValue_of_string (h : t.kind = .string) :
    HasBitsWithoutValue (t :: ts) ↔ HasBitsWithoutValue ts := by
  cases ts with
  | nil => exact iff_of_false not_hasBitsWithoutValue_singleton not_hasBitsWithoutValue_nil
  | cons u ts =>
      rw [hasBitsWithoutValue_cons]
      refine or_iff_right ?_
      rintro ⟨hbits, -⟩
      exact Introducer.not_string_of_before hbits h

namespace Parameter

variable {naming : Naming}

theorem bindLiteral_error {start : Nat} {literal : Token} {following : Nat → Except Error Bound}
    {e : Error} :
    bindLiteral naming n start literal following = .error e ↔
      naming.positional = true ∧ e = .refuse .positionalPlaceholders ∨
        naming.positional = false ∧ following (naming.next n + 1) = .error e := by
  unfold bindLiteral
  cases naming.positional with
  | true => simp [eq_comm]
  | false => simp [except_map_error]

theorem bindFrom_refusing : Refusing (bindFrom naming n ts) := by
  fun_induction bindFrom naming n ts with
  | case1 => exact .ok _
  | case2 n t ts hstring ih =>
      intro e he
      rcases bindLiteral_error.1 he with ⟨-, rfl⟩ | ⟨-, he⟩
      · exact Error.isRefusal_refuse _
      · exact ih _ e he
  | case3 => exact .ok _
  | case4 n t hstring u rest hbefore ih => exact ih.map _
  | case5 => exact .refuse _
  | case6 n t hstring u rest hbefore text hbits ih => exact ih.map _
  | case7 n t hstring u rest hbefore ih =>
      intro e he
      rcases bindLiteral_error.1 he with ⟨-, rfl⟩ | ⟨-, he⟩
      · exact Error.isRefusal_refuse _
      · exact ih _ e he
  | case8 n t hstring u rest hbefore ih => exact ih.map _

theorem bindFrom_error_iff (hfree : HeadFree p ts) :
    (∃ e, bindFrom naming n ts = .error e) ↔
      HasBitsWithoutValue ts ∨ naming.positional = true ∧ freeLiterals p ts ≠ [] := by
  fun_induction bindFrom naming n ts generalizing p with
  | case1 => simp [not_hasBitsWithoutValue_nil, freeLiterals]
  | case2 n t ts hstring ih =>
      simp only [bindLiteral_error, exists_or, exists_and_left,
        ih _ (HeadFree.of_string hstring ts)]
      rw [hasBitsWithoutValue_of_string hstring,
        freeLiterals_of_free _ hstring (hfree t rfl hstring)]
      cases naming.positional with
      | true => simp
      | false => simp
  | case3 n t hstring =>
      simp [not_hasBitsWithoutValue_singleton, freeLiterals, hstring]
  | case4 n t hstring u rest hbefore ih =>
      have hu := Introducer.kind_of_before hbefore
      simp only [except_map_error]
      rw [ih (HeadFree.of_string hu rest), hasBitsWithoutValue_cons,
        hasBitsWithoutValue_of_string hu, Introducer.freeLiterals_of_bytes _ hbefore]
      simp [BitsWithoutValue, hbefore]
  | case5 n t hstring u rest hbefore fault hbits =>
      simp [hasBitsWithoutValue_cons, bitsWithoutValue_iff, hbefore, hbits]
  | case6 n t hstring u rest hbefore text hbits ih =>
      have hu := Introducer.kind_of_before hbefore
      simp only [except_map_error]
      rw [ih (HeadFree.of_string hu rest), hasBitsWithoutValue_cons,
        hasBitsWithoutValue_of_string hu, Introducer.freeLiterals_of_bits _ hbefore]
      simp [bitsWithoutValue_iff, hbits]
  | case7 n t hstring u rest hbefore ih =>
      have hu := Introducer.kind_of_before hbefore
      simp only [bindLiteral_error, exists_or, exists_and_left, ih _ (HeadFree.of_string hu rest)]
      rw [hasBitsWithoutValue_cons, hasBitsWithoutValue_of_string hu,
        Introducer.freeLiterals_of_charset _ hbefore]
      cases naming.positional with
      | true => simp
      | false => simp [BitsWithoutValue, hbefore]
  | case8 n t hstring u rest hbefore ih =>
      simp only [except_map_error]
      rw [ih (Introducer.headFree_of_before hbefore rest), hasBitsWithoutValue_cons,
        freeLiterals_of_not_string _ hstring]
      simp [BitsWithoutValue, hbefore]

/-- Binding the literals of a statement fails just if one of them is marked as bits without spelling
a number, or there are some beside placeholders without names. -/
theorem extract_error_iff (stem : Text) {tokens : List Token} :
    (∃ e, extract stem tokens = .error e) ↔ Unbindable tokens := by
  unfold extract Unbindable
  rw [bindFrom_error_iff (p := none) (fun t _ _ => rfl)]
  simp [Naming.ofTokens]

end Parameter

end Restate

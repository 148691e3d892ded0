import Restate.Proofs.Number.Binary
import Restate.Proofs.Rows.Binding

/-!
# Numbers written in bits

A literal marked as bits is replaced by a number. Its contents are read as a numeral to base two, and
that is more than a row of bits: signs, blanks, marks and digits of other scripts are allowed, and
what has too many decimal digits is refused. Main statement: binding goes around such a literal as
around any other token, and gives it by its bits just if its contents are bits of a number that can
be written, or no numeral at all (`Parameter.extract_byBits_iff`).
-/

namespace Restate

open Text

/-- What the contents of a literal marked as bits spell; no contents spell zero. -/
inductive SpellsBits : Text → Int → Prop where
  | empty : SpellsBits [] 0
  | numeral {content : Text} {n : Int} : Numeral.IsBinary content n → SpellsBits content n

/-- The number has few enough decimal digits to be written. -/
def IsWritable (n : Int) : Prop :=
  n.natAbs < 10 ^ NumeralFault.digitLimit

/-- What the contents of a literal marked as bits give: a number, or nothing. -/
inductive GivesBits (content : Text) : Option Int → Prop where
  | number {n : Int} : SpellsBits content n → IsWritable n → GivesBits content (some n)
  | refused : (∀ n, SpellsBits content n → ¬ IsWritable n) → GivesBits content none

/-- What the contents ask for bit by bit: the number they spell, or nothing where a character is no
bit. -/
def bits? (content : Text) : Option Int :=
  if content.all Numeral.isBit then some (Numeral.bitsValue content : Nat) else none

/-- Contents that are bits spell a number that can be written; other contents are no numeral of
one. -/
def GivenByBits (content : Text) : Prop :=
  (content.all Numeral.isBit = true → Numeral.bitsValue content < 10 ^ NumeralFault.digitLimit) ∧
    (content.all Numeral.isBit = false → ∀ n, Numeral.IsBinary content n → ¬ IsWritable n)

section Contents

variable {content text : Text} {m n : Int}

theorem numeral_length_le_iff :
    (numeral n.natAbs).length ≤ NumeralFault.digitLimit ↔ IsWritable n :=
  Nat.length_toDigits_le_iff (by decide) (by decide)

theorem not_isBinary_nil : ¬ Numeral.IsBinary [] n := by
  intro h
  have := Numeral.integer_of_isBinary h
  simp [Numeral.integer, Numeral.sign, Numeral.afterBinaryMark, Numeral.digitRun] at this

theorem SpellsBits.unique (hm : SpellsBits content m) (hn : SpellsBits content n) : m = n := by
  cases hm with
  | empty =>
      cases hn with
      | empty => rfl
      | numeral hn => exact absurd hn not_isBinary_nil
  | numeral hm =>
      cases hn with
      | empty => exact absurd hm not_isBinary_nil
      | numeral hn => exact hm.unique hn

/-- Contents that are empty are read as a lone zero. -/
theorem integer_eq_ok_iff :
    Numeral.integer 2 (if content.isEmpty then ['0'] else content) = .ok n ↔
      SpellsBits content n := by
  rw [Numeral.integer_two_eq_ok_iff]
  cases content with
  | nil =>
      have hzero : Numeral.IsBinary ['0'] 0 := Numeral.isBinary_of_bits (by simp) (by decide)
      constructor
      · intro h
        rw [h.unique hzero]
        exact .empty
      · rintro ⟨⟩
        · exact hzero
        · next h => exact absurd h not_isBinary_nil
  | cons c s =>
      constructor
      · exact .numeral
      · rintro ⟨⟩
        next h => exact h

theorem bitNumeral_eq_ok_iff :
    bitNumeral content = .ok text ↔
      ∃ n, SpellsBits content n ∧ IsWritable n ∧ text = signedNumeral n := by
  have hwritten : ∀ n, Numeral.written n = .ok text ↔ IsWritable n ∧ text = signedNumeral n := by
    intro n
    unfold Numeral.written
    rw [← numeral_length_le_iff]
    split
    · simp_all
    · simp_all [eq_comm]
  unfold bitNumeral
  simp only [← integer_eq_ok_iff, ← hwritten]
  cases Numeral.integer 2 (if content.isEmpty then ['0'] else content) with
  | error fault => simp [bind, Except.bind]
  | ok n => simp [bind, Except.bind]

/-- What the contents give is what is made of them. -/
theorem GivesBits.bitNumeral {value : Option Int} (h : GivesBits content value) :
    match value with
    | some n => bitNumeral content = .ok (signedNumeral n)
    | none => ∃ fault, bitNumeral content = .error fault := by
  cases h with
  | number hspells hwritable => exact bitNumeral_eq_ok_iff.2 ⟨_, hspells, hwritable, rfl⟩
  | refused hnone =>
      cases hbits : Restate.bitNumeral content with
      | error fault => exact ⟨fault, rfl⟩
      | ok text =>
          obtain ⟨n, hspells, hwritable, -⟩ := bitNumeral_eq_ok_iff.1 hbits
          exact absurd hwritable (hnone n hspells)

theorem exists_givesBits (content : Text) : ∃ value, GivesBits content value := by
  by_cases h : ∃ n, SpellsBits content n ∧ IsWritable n
  · obtain ⟨n, hspells, hwritable⟩ := h
    exact ⟨some n, .number hspells hwritable⟩
  · exact ⟨none, .refused fun n hspells hwritable => h ⟨n, hspells, hwritable⟩⟩

theorem spellsBits_of_bits (h : content.all Numeral.isBit = true) :
    SpellsBits content (Numeral.bitsValue content : Nat) := by
  cases content with
  | nil => exact .empty
  | cons c s => exact .numeral (Numeral.isBinary_of_bits (by simp) h)

theorem spellsBits_of_bits? (h : bits? content = some n) : SpellsBits content n := by
  unfold bits? at h
  split at h
  · next hbits =>
      rw [← Option.some.inj h]
      exact spellsBits_of_bits hbits
  · simp at h

/-- When the contents give what they ask for bit by bit. -/
theorem givesBits_bits?_iff : GivesBits content (bits? content) ↔ GivenByBits content := by
  unfold bits? GivenByBits
  cases hbits : content.all Numeral.isBit with
  | true =>
      have hspells := spellsBits_of_bits hbits
      simp only [if_true, forall_const, Bool.true_eq_false, false_implies, and_true]
      constructor
      · rintro ⟨⟩
        next hwritable => exact hwritable
      · exact fun hwritable => .number hspells hwritable
  | false =>
      simp only [Bool.false_eq_true, if_false, false_implies, forall_const, true_and]
      constructor
      · rintro ⟨⟩
        next hnone => exact fun n h => hnone n (.numeral h)
      · intro hnone
        refine .refused fun n hspells => ?_
        cases hspells with
        | empty => simp at hbits
        | numeral h => exact hnone n h

end Contents

section Pairs

variable {test : Token → Token → Bool} {tokens : List Token}

/-- Whether the tokens begin with two that pass a test. -/
def beginPairPasses (test : Token → Token → Bool) : List Token → Bool
  | marker :: literal :: _ => test marker literal
  | [_] | [] => false

theorem exists_of_beginPairPasses (h : beginPairPasses test tokens = true) :
    ∃ marker literal rest, tokens = marker :: literal :: rest ∧ test marker literal = true := by
  match tokens, h with
  | marker :: literal :: rest, h => exact ⟨marker, literal, rest, rfl, h⟩

end Pairs

namespace Parameter

/-- What is bound of one part of a statement and of the part behind it. -/
def Bound.append (front back : Bound) : Bound :=
  ⟨front.tokens ++ back.tokens, front.params ++ back.params⟩

/-- The least number that may still be given once so many literals are bound. -/
def Naming.behind (naming : Naming) (n literals : Nat) : Nat :=
  (fun n => naming.next n + 1)^[literals] n

variable {naming : Naming} {n : Nat} {ts rest : List Token}

theorem Bound.append_nil (x : Except Error Bound) : x.map (Bound.append ⟨[], []⟩) = x := by
  cases x with
  | error e => rfl
  | ok bound => rfl

/-- Tokens that are left in front stay in front. -/
theorem map_after_bind {head : List Token} {x : Except Error Bound} :
    (x.map (Bound.after head) >>= fun front =>
        (bindFrom naming (naming.behind n front.params.length) rest).map front.append) =
      (x >>= fun front =>
        (bindFrom naming (naming.behind n front.params.length) rest).map front.append).map
          (Bound.after head) := by
  cases x with
  | error e => rfl
  | ok front =>
      simp only [bind, Except.bind, Except.map, Bound.after]
      cases bindFrom naming (naming.behind n front.params.length) rest with
      | error e => rfl
      | ok back => simp [Bound.append]

/-- A literal that is bound in front takes one number from what follows. -/
theorem bindLiteral_bind {start : Nat} {literal : Token} {x : Nat → Except Error Bound} :
    (bindLiteral naming n start literal x >>= fun front =>
        (bindFrom naming (naming.behind n front.params.length) rest).map front.append) =
      bindLiteral naming n start literal fun n => x n >>= fun front =>
        (bindFrom naming (naming.behind n front.params.length) rest).map front.append := by
  unfold bindLiteral
  cases naming.positional with
  | true => rfl
  | false =>
      cases hx : x (naming.next n + 1) with
      | error e => simp [hx, bind, Except.bind, Except.map]
      | ok front =>
          have hbehind : naming.behind n (front.params.length + 1) =
              naming.behind (naming.next n + 1) front.params.length :=
            Function.iterate_succ_apply _ _ _
          simp only [hx, bind, Except.bind, Except.map, Bound.afterLiteral, List.length_cons,
            hbehind, Bool.false_eq_true, if_false]
          cases bindFrom naming (naming.behind (naming.next n + 1) front.params.length) rest with
          | error e => rfl
          | ok back => rfl

/-- Binding goes on behind one part of a statement with the numbers that are left, unless a literal
is cut off from the word that introduces it. -/
theorem bindFrom_append (hrest : ∀ t ∈ rest.head?, t.kind ≠ .string) :
    bindFrom naming n (ts ++ rest) = (bindFrom naming n ts >>= fun front =>
      (bindFrom naming (naming.behind n front.params.length) rest).map front.append) := by
  fun_induction bindFrom naming n ts with
  | case1 n => exact (Bound.append_nil _).symm
  | case2 n t ts hstring ih =>
      rw [List.cons_append, bindFrom_string hstring, bindLiteral_bind]
      exact congrArg _ (funext ih)
  | case3 n t hstring =>
      cases rest with
      | nil => rw [List.append_nil, bindFrom_last hstring]; rfl
      | cons u rest =>
          have hnone : Introducer.before? t u = none := by
            simp [Introducer.before?, hrest u rfl]
          rw [List.singleton_append, bindFrom_pair hstring, hnone]
          rfl
  | case4 n t hstring u more hbefore ih =>
      rw [List.cons_append, List.cons_append, bindFrom_pair hstring, hbefore, map_after_bind, ← ih]
  | case5 n t hstring u more hbefore fault hbits =>
      rw [List.cons_append, List.cons_append, bindFrom_pair hstring, hbefore]
      simp only [hbits]
      rfl
  | case6 n t hstring u more hbefore text hbits ih =>
      rw [List.cons_append, List.cons_append, bindFrom_pair hstring, hbefore]
      simp only [hbits]
      rw [map_after_bind, ← ih]
  | case7 n t hstring u more hbefore ih =>
      rw [List.cons_append, List.cons_append, bindFrom_pair hstring, hbefore, bindLiteral_bind]
      simp only [ih]
  | case8 n t hstring u more hbefore ih =>
      rw [List.cons_append, List.cons_append, bindFrom_pair hstring, hbefore, map_after_bind, ← ih]
      rfl

/-- The literals of a statement bound in front of a literal marked as bits and behind it, and in its
place the number it gives; the literal is refused if it gives none. -/
def bindAround (naming : Naming) (before : List Token) (marker literal : Token)
    (after : List Token) (value : Option Int) : Except Error Bound :=
  bindFrom naming 0 before >>= fun front =>
    match value with
    | none => .error (.refuse (.invalidBitLiteral literal.text))
    | some n =>
      (bindFrom naming (naming.behind 0 front.params.length) after).map fun back =>
        front.append (back.after [⟨.number, signedNumeral n, marker.start, literal.stop⟩])

variable {before after : List Token} {marker literal : Token}

theorem bindFrom_bits (hbits : Introducer.before? marker literal = some .bits)
    {value : Option Int} (hvalue : GivesBits literal.value value) :
    bindFrom naming 0 (before ++ marker :: literal :: after) =
      bindAround naming before marker literal after value := by
  have hmarker := Introducer.not_string_of_before hbits
  have hread := hvalue.bitNumeral
  rw [bindFrom_append (by simpa using hmarker), bindAround]
  refine congrArg (bindFrom naming 0 before >>= ·) (funext fun front => ?_)
  rw [bindFrom_pair hmarker, hbits]
  cases value with
  | none =>
      obtain ⟨fault, hfault⟩ := hread
      simp [hfault, Except.map]
  | some n =>
      simp only [hread]
      cases bindFrom naming (naming.behind 0 front.params.length) after with
      | error e => rfl
      | ok back => rfl

/-- Whether a literal is refused shows in what is bound, if the rest of the statement can be. -/
theorem bindAround_isSome {front back : Bound} {v w : Option Int}
    (hfront : bindFrom naming 0 before = .ok front)
    (hback : bindFrom naming (naming.behind 0 front.params.length) after = .ok back)
    (h : bindAround naming before marker literal after v =
      bindAround naming before marker literal after w) : v.isSome = w.isSome := by
  unfold bindAround at h
  rw [hfront] at h
  cases v with
  | none =>
      cases w with
      | none => rfl
      | some n => simp [hback, bind, Except.bind, Except.map] at h
  | some m =>
      cases w with
      | none => simp [hback, bind, Except.bind, Except.map] at h
      | some n => rfl

variable {tokens : List Token}

/-- Every literal marked as bits is refused, or becomes a number between what becomes of the tokens
before and behind it, as its contents spell one to base two or none that can be written. It is
answered bit by bit just if its contents are bits of a number that can be written, or no numeral of
one. -/
theorem extract_byBits_iff (stem : Text) (hsplit : tokens = before ++ marker :: literal :: after)
    (hbits : Introducer.before? marker literal = some .bits) :
    (∃ value, GivesBits literal.value value ∧ extract stem tokens =
      bindAround (Naming.ofTokens stem tokens) before marker literal after value) ∧
    (GivenByBits literal.value → extract stem tokens =
      bindAround (Naming.ofTokens stem tokens) before marker literal after
        (bits? literal.value)) ∧
    ∀ front back, bindFrom (Naming.ofTokens stem tokens) 0 before = .ok front →
      bindFrom (Naming.ofTokens stem tokens)
        ((Naming.ofTokens stem tokens).behind 0 front.params.length) after = .ok back →
      extract stem tokens = bindAround (Naming.ofTokens stem tokens) before marker literal after
        (bits? literal.value) →
      GivenByBits literal.value := by
  have hlaw : ∀ {value : Option Int}, GivesBits literal.value value → extract stem tokens =
      bindAround (Naming.ofTokens stem tokens) before marker literal after value := by
    intro value hvalue
    rw [← bindFrom_bits hbits hvalue, ← hsplit]
    rfl
  obtain ⟨value, hvalue⟩ := exists_givesBits literal.value
  refine ⟨⟨value, hvalue, hlaw hvalue⟩, fun hgiven => hlaw (givesBits_bits?_iff.2 hgiven), ?_⟩
  intro front back hfront hback hanswer
  have hsome := bindAround_isSome hfront hback ((hlaw hvalue).symm.trans hanswer)
  rw [← givesBits_bits?_iff]
  cases hasked : bits? literal.value with
  | none =>
      obtain rfl : value = none := by simpa [hasked] using hsome
      exact hvalue
  | some n =>
      cases hvalue with
      | refused _ => simp [hasked] at hsome
      | @number m hspells hwritable =>
          obtain rfl : m = n := hspells.unique (spellsBits_of_bits? hasked)
          exact .number hspells hwritable

/-- Leading zeros are bits like others. -/
theorem extract_byBits_of_zeros :
    ∃ (tokens before after : List Token) (marker literal : Token) (bound : Bound),
      tokenize "SELECT B'0101', 'x'" = .ok tokens ∧
      tokens = before ++ marker :: literal :: after ∧
      Introducer.before? marker literal = some .bits ∧ GivenByBits literal.value ∧
      extract "p" tokens = .ok bound ∧ sourceText bound.tokens = "SELECT 5, :p0" ∧
      bindAround (Naming.ofTokens "p" tokens) before marker literal after
        (bits? literal.value) = .ok bound := by
  obtain ⟨tokens, htokens, htest⟩ := exists_of_passes (show passes (fun tokens =>
      beginPairPasses (fun marker literal =>
        Introducer.before? marker literal == some .bits && literal.value == "0101".toList)
        (tokens.drop 2) &&
      passes (fun bound => sourceText bound.tokens == "SELECT 5, :p0".toList) (extract "p" tokens))
      (tokenize "SELECT B'0101', 'x'") = true by decide +kernel)
  obtain ⟨hpair, hbound⟩ := Bool.and_eq_true_iff.1 htest
  obtain ⟨marker, literal, after, hrest, hpair⟩ := exists_of_beginPairPasses hpair
  obtain ⟨bound, hbound, htext⟩ := exists_of_passes hbound
  simp only [Bool.and_eq_true, beq_iff_eq] at hpair
  obtain ⟨hbits, hvalue⟩ := hpair
  have hsplit : tokens = tokens.take 2 ++ marker :: literal :: after := by
    rw [← hrest, List.take_append_drop]
  have hgiven : GivenByBits literal.value := by
    rw [hvalue]
    refine ⟨fun _ => ?_, fun h => absurd h (by decide)⟩
    calc Numeral.bitsValue "0101" < 10 ^ 1 := by decide
      _ ≤ 10 ^ NumeralFault.digitLimit := Nat.pow_le_pow_right (by decide) (by decide)
  exact ⟨tokens, tokens.take 2, after, marker, literal, bound, htokens, hsplit, hbits, hgiven,
    hbound, eq_of_beq htext, ((extract_byBits_iff "p" hsplit hbits).2.1 hgiven).symm.trans hbound⟩

/-- A sign is read as one, and the literal becomes a negative number. -/
theorem extract_signedBits :
    ∃ (tokens before after : List Token) (marker literal : Token) (bound : Bound),
      tokenize "SELECT b'-1'" = .ok tokens ∧ tokens = before ++ marker :: literal :: after ∧
      Introducer.before? marker literal = some .bits ∧ bits? literal.value = none ∧
      extract "p" tokens = .ok bound ∧ sourceText bound.tokens = "SELECT -1" := by
  obtain ⟨tokens, htokens, htest⟩ := exists_of_passes (show passes (fun tokens =>
      beginPairPasses (fun marker literal =>
        Introducer.before? marker literal == some .bits && bits? literal.value == none)
        (tokens.drop 2) &&
      passes (fun bound => sourceText bound.tokens == "SELECT -1".toList) (extract "p" tokens))
      (tokenize "SELECT b'-1'") = true by decide +kernel)
  obtain ⟨hpair, hbound⟩ := Bool.and_eq_true_iff.1 htest
  obtain ⟨marker, literal, after, hrest, hpair⟩ := exists_of_beginPairPasses hpair
  obtain ⟨bound, hbound, htext⟩ := exists_of_passes hbound
  simp only [Bool.and_eq_true, beq_iff_eq] at hpair
  obtain ⟨hbits, hvalue⟩ := hpair
  have hsplit : tokens = tokens.take 2 ++ marker :: literal :: after := by
    rw [← hrest, List.take_append_drop]
  exact ⟨tokens, tokens.take 2, after, marker, literal, bound, htokens, hsplit, hbits, hvalue,
    hbound, eq_of_beq htext⟩

end Parameter

end Restate

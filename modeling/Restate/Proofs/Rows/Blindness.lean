import Mathlib.Data.List.Forall2
import Restate.Proofs.Rows.Binding
import Restate.Proofs.Rows.Places

/-!
# Literals stay out of the statement

What a string literal holds is bound to a parameter and decides nothing else. Two statements on rows
that differ in literals only become the same text with the same parameter names, or are refused for
the same cause. Literals behind `x` and `b` are spelled out in the statement and are not meant here.
Main statement: `restate_alike`.
-/

namespace Restate

/-- Two token lists, each behind the token before it, that differ in literals only: they have the
same kinds and the same texts, but for literals that are not marked, and the same tokens touch. -/
def Alike : Option Token → Option Token → List Token → List Token → Prop
  | _, _, [], [] => True
  | p, q, t :: ts, u :: us =>
    t.kind = u.kind ∧ (t.text = u.text ∨ t.kind = .string ∧ t.isMarked p = false) ∧
      p.map (·.touches t) = q.map (·.touches u) ∧ Alike (some t) (some u) ts us
  | _, _, _, _ => False

instance Alike.decidable : ∀ (p q : Option Token) (ts us : List Token), Decidable (Alike p q ts us)
  | _, _, [], [] => inferInstanceAs (Decidable True)
  | p, q, t :: ts, u :: us =>
    have := Alike.decidable (some t) (some u) ts us
    inferInstanceAs (Decidable (t.kind = u.kind ∧ (t.text = u.text ∨ t.kind = .string ∧
      t.isMarked p = false) ∧ p.map (·.touches t) = q.map (·.touches u) ∧ _))
  | _, _, [], _ :: _ => inferInstanceAs (Decidable False)
  | _, _, _ :: _, [] => inferInstanceAs (Decidable False)

/-- What went wrong, without the statement in which it did. -/
def Error.cause : Error → Error
  | .unsupported cause _ => .unsupported cause none
  | e => e

theorem Error.cause_about (statement : Text) (e : Error) : (e.about statement).cause = e.cause := by
  unfold about
  split
  · rfl
  · rfl

variable {naming : Parameter.Naming} {p q : Option Token} {ts us : List Token} {n : Nat}

/-- What stands at the head of two lists that differ in literals only, if it is no literal. -/
theorem Alike.uncons {t : Token} (h : Alike p q (t :: ts) us) (hstring : t.kind ≠ .string) :
    ∃ t' us', us = t' :: us' ∧ t.unplaced = t'.unplaced ∧ Alike (some t) (some t') ts us' := by
  cases us with
  | nil => exact h.elim
  | cons t' us' =>
      obtain ⟨hkind, htext, -, hrest⟩ := h
      refine ⟨t', us', rfl, Token.unplaced_eq hkind ?_, hrest⟩
      rcases htext with htext | ⟨hkind, -⟩
      · exact htext
      · exact (hstring hkind).elim

/-- The tokens behind such a head are introduced by it in the same way, and those that are marked
are the same. -/
theorem Alike.second {t t' u : Token} (h : Alike (some t) (some t') (u :: ts) us)
    (hhead : t.unplaced = t'.unplaced) :
    ∃ u' us', us = u' :: us' ∧ Introducer.before? t' u' = Introducer.before? t u ∧
      (u.isMarked (some t) = true → u.unplaced = u'.unplaced) ∧ u.kind = u'.kind ∧
      Alike (some u) (some u') ts us' := by
  cases us with
  | nil => exact h.elim
  | cons u' us' =>
      obtain ⟨hkind, htext, htouches, hrest⟩ := h
      refine ⟨u', us', rfl, ?_, ?_, hkind, hrest⟩
      · have hbare : t'.kind = t.kind := (Token.kind_of_unplaced hhead).symm
        have hupper : t'.upper = t.upper := (Token.upper_of_unplaced hhead).symm
        have htouches : t'.touches u' = t.touches u := (Option.some.inj htouches).symm
        unfold Introducer.before?
        rw [hbare, hupper, htouches, hkind]
      · intro hmarked
        rcases htext with htext | ⟨-, hfree⟩
        · exact Token.unplaced_eq hkind htext
        · simp [hmarked] at hfree

namespace Parameter

/-- Tokens and parameters that differ in the values only, and in where the tokens stand. -/
def Bound.Like (a b : Bound) : Prop :=
  a.tokens.map Token.unplaced = b.tokens.map Token.unplaced ∧ a.params.keys = b.params.keys

/-- Two outcomes of binding that are alike. -/
def SameBound : Except Error Bound → Except Error Bound → Prop
  | .ok a, .ok b => a.Like b
  | .error e, .error f => e = f
  | _, _ => False

theorem SameBound.map {x y : Except Error Bound} {f g : Bound → Bound} (h : SameBound x y)
    (hlike : ∀ a b : Bound, a.Like b → (f a).Like (g b)) : SameBound (x.map f) (y.map g) := by
  cases x with
  | error e =>
      cases y with
      | error f => exact h
      | ok b => exact h.elim
  | ok a =>
      cases y with
      | error f => exact h.elim
      | ok b => exact hlike a b h

theorem SameBound.after {x y : Except Error Bound} {head head' : List Token} (h : SameBound x y)
    (hhead : head.map Token.unplaced = head'.map Token.unplaced) :
    SameBound (x.map (Bound.after head)) (y.map (Bound.after head')) := by
  apply h.map
  rintro a b ⟨htokens, hparams⟩
  refine ⟨?_, hparams⟩
  simp only [Bound.after, List.map_append, hhead, htokens]

theorem SameBound.literal {x y : Nat → Except Error Bound} (h : ∀ n, SameBound (x n) (y n))
    (naming : Naming) (n start start' : Nat) (t u : Token) :
    SameBound (bindLiteral naming n start t x) (bindLiteral naming n start' u y) := by
  unfold bindLiteral
  split
  · rfl
  · refine (h (naming.next n + 1)).map ?_
    rintro a b ⟨htokens, hparams⟩
    refine ⟨?_, ?_⟩
    · simp only [Bound.afterLiteral, List.map_cons, htokens]
      rfl
    · simp only [Bound.afterLiteral, Fields.keys, List.map_cons] at hparams ⊢
      rw [hparams]

/-- Token lists that differ in literals only are bound alike. -/
theorem bindFrom_alike (h : Alike p q ts us) (hfree : HeadFree p ts) (n : Nat) :
    SameBound (bindFrom naming n ts) (bindFrom naming n us) := by
  fun_induction bindFrom naming n ts generalizing p q us with
  | case1 n =>
      cases us with
      | nil => exact ⟨rfl, rfl⟩
      | cons u us => exact h.elim
  | case2 n t ts hstring ih =>
      cases us with
      | nil => exact h.elim
      | cons u us =>
          obtain ⟨hkind, -, -, hrest⟩ := h
          rw [bindFrom_string (hkind ▸ hstring)]
          exact SameBound.literal (fun n => ih n hrest (HeadFree.of_string hstring ts)) _ _ _ _ _ _
  | case3 n t hstring =>
      obtain ⟨t', us, rfl, hhead, hrest⟩ := h.uncons hstring
      have hstring' : t'.kind ≠ .string := Token.kind_of_unplaced hhead ▸ hstring
      cases us with
      | cons u us => exact hrest.elim
      | nil =>
          rw [bindFrom_last hstring']
          exact ⟨by simp [hhead], rfl⟩
  | case4 n t hstring u rest hbefore ih =>
      obtain ⟨t', us, rfl, hhead, hrest⟩ := h.uncons hstring
      obtain ⟨u', us, rfl, hsame, hmarked, -, hrest⟩ := hrest.second hhead
      have hstring' : t'.kind ≠ .string := Token.kind_of_unplaced hhead ▸ hstring
      have hu := Introducer.kind_of_before hbefore
      have hmarked := hmarked ((Introducer.isMarked_iff hu).2 (.inl hbefore))
      rw [bindFrom_pair hstring', hsame, hbefore]
      refine (ih hrest (HeadFree.of_string hu rest)).after ?_
      simp [byteLiteral, Token.unplaced, Token.kind_of_unplaced hhead,
        Token.kind_of_unplaced hmarked, Token.value_of_unplaced hmarked]
  | case5 n t hstring u rest hbefore e hbits =>
      obtain ⟨t', us, rfl, hhead, hrest⟩ := h.uncons hstring
      obtain ⟨u', us, rfl, hsame, hmarked, -, hrest⟩ := hrest.second hhead
      have hstring' : t'.kind ≠ .string := Token.kind_of_unplaced hhead ▸ hstring
      have hu := Introducer.kind_of_before hbefore
      have hmarked := hmarked ((Introducer.isMarked_iff hu).2 (.inr hbefore))
      have htext : u'.text = u.text := (Token.text_of_unplaced hmarked).symm
      have hvalue : u'.value = u.value := (Token.value_of_unplaced hmarked).symm
      rw [bindFrom_pair hstring', hsame, hbefore]
      dsimp only
      rw [hvalue, hbits, htext]
      rfl
  | case6 n t hstring u rest hbefore text hbits ih =>
      obtain ⟨t', us, rfl, hhead, hrest⟩ := h.uncons hstring
      obtain ⟨u', us, rfl, hsame, hmarked, -, hrest⟩ := hrest.second hhead
      have hstring' : t'.kind ≠ .string := Token.kind_of_unplaced hhead ▸ hstring
      have hu := Introducer.kind_of_before hbefore
      have hmarked := hmarked ((Introducer.isMarked_iff hu).2 (.inr hbefore))
      have hvalue : u'.value = u.value := (Token.value_of_unplaced hmarked).symm
      rw [bindFrom_pair hstring', hsame, hbefore]
      dsimp only
      rw [hvalue, hbits]
      exact (ih hrest (HeadFree.of_string hu rest)).after rfl
  | case7 n t hstring u rest hbefore ih =>
      obtain ⟨t', us, rfl, hhead, hrest⟩ := h.uncons hstring
      obtain ⟨u', us, rfl, hsame, -, -, hrest⟩ := hrest.second hhead
      have hstring' : t'.kind ≠ .string := Token.kind_of_unplaced hhead ▸ hstring
      have hu := Introducer.kind_of_before hbefore
      rw [bindFrom_pair hstring', hsame, hbefore]
      exact SameBound.literal (fun n => ih n hrest (HeadFree.of_string hu rest)) _ _ _ _ _ _
  | case8 n t hstring u rest hbefore ih =>
      obtain ⟨t', us, rfl, hhead, hrest⟩ := h.uncons hstring
      obtain ⟨u', us', rfl, hsame, -, -, -⟩ := hrest.second hhead
      have hstring' : t'.kind ≠ .string := Token.kind_of_unplaced hhead ▸ hstring
      rw [bindFrom_pair hstring', hsame, hbefore]
      refine (ih hrest ?_).after (by simp [hhead])
      intro v hv hvstring
      obtain rfl : v = u := by simpa using hv.symm
      exact Introducer.isMarked_eq_false hvstring (by simp [hbefore]) (by simp [hbefore])

end Parameter

/-- Tokens of one kind, with one text unless they are literals. -/
def Token.Like (t u : Token) : Prop :=
  t.kind = u.kind ∧ (t.kind = .string ∨ t.text = u.text)

theorem Alike.forall₂ (h : Alike p q ts us) : List.Forall₂ Token.Like ts us := by
  induction ts generalizing p q us with
  | nil =>
      cases us with
      | nil => exact .nil
      | cons u us => exact h.elim
  | cons t ts ih =>
      cases us with
      | nil => exact h.elim
      | cons u us =>
          obtain ⟨hkind, htext, -, hrest⟩ := h
          refine .cons ⟨hkind, ?_⟩ (ih hrest)
          rcases htext with htext | ⟨hstring, -⟩
          · exact .inr htext
          · exact .inl hstring

namespace Parameter

/-- Placeholders are no literals, so the parameters of such statements are named in the same way. -/
theorem naming_like (h : List.Forall₂ Token.Like ts us) (stem : Text) :
    Naming.ofTokens stem ts = Naming.ofTokens stem us := by
  unfold Naming.ofTokens
  rw [Naming.mk.injEq]
  refine ⟨rfl, ?_, ?_⟩
  · induction h with
    | nil => rfl
    | cons hlike hrest ih =>
        obtain ⟨hkind, hstring | htext⟩ := hlike
        · rw [List.filterMap_cons, List.filterMap_cons, ← hkind, hstring]
          exact ih
        · rw [List.filterMap_cons, List.filterMap_cons, ← hkind, htext, ih]
  · induction h with
    | nil => rfl
    | cons hlike hrest ih =>
        obtain ⟨hkind, hstring | htext⟩ := hlike
        · rw [List.any_cons, List.any_cons, ← hkind, hstring, ih]
          rfl
        · rw [List.any_cons, List.any_cons, ← hkind, htext, ih]

end Parameter

namespace StatementKind

/-- The words a statement begins with are no literals. -/
theorem leadingWords_like (h : List.Forall₂ Token.Like ts us) (limit : Nat) :
    leadingWords limit (significant ts) = leadingWords limit (significant us) := by
  unfold leadingWords
  rw [List.map_take, List.map_take]
  congr 1
  induction h with
  | nil => rfl
  | @cons t u ts us hlike hrest ih =>
      obtain ⟨hkind, htext⟩ := hlike
      have htrivia : u.isTrivia = t.isTrivia := by rw [Token.isTrivia, Token.isTrivia, hkind]
      cases ht : t.isTrivia with
      | true => simpa [significant, ht, htrivia] using ih
      | false =>
          have hts : significant (t :: ts) = t :: significant ts := by simp [significant, ht]
          have hus : significant (u :: us) = u :: significant us := by
            simp [significant, ht, htrivia]
          rw [hts, hus, List.takeWhile_cons, List.takeWhile_cons, ← hkind]
          cases hbare : t.kind.isBare with
          | false => rfl
          | true =>
              have htext : t.text = u.text := by
                rcases htext with hstring | htext
                · simp [hstring, TokenKind.isBare] at hbare
                · exact htext
              simp only [if_true, List.map_cons]
              rw [ih, Token.upper, Token.upper, htext]

theorem leadingWords_nil (limit : Nat) : leadingWords limit [] = [] := by
  simp [leadingWords]

theorem ofWords?_nil : ofWords? [] = none := by
  decide

theorem ofWords?_create (rest : List Text) {kind : StatementKind}
    (h : ofWords? ("CREATE".toList :: rest) = some kind) : kind ∉ onRows := by
  unfold ofWords? at h
  split at h
  · cases h
    decide
  · split at h
    · cases h
      decide
    · have hlookup : rowStatements.lookup "CREATE".toList = none := by decide
      simp only [hlookup, ofObject?, if_true] at h
      split at h
      · cases h
        decide
      · split at h
        · cases h
          decide
        · simp at h

theorem ofAlter_not_row {tokens : List Token} {kind : StatementKind}
    (h : ofAlter tokens = .ok kind) : kind ∉ onRows := by
  have haddition : ∀ target, ofAddition target = .ok kind → kind ∉ onRows := by
    intro target h
    unfold ofAddition at h
    split at h
    · cases h
      decide
    · split at h
      · cases h
        decide
      · split at h
        · cases h
          decide
        · split at h
          · cases h
            decide
          · split at h
            · simp at h
            · cases h
              decide
  unfold ofAlter at h
  split at h
  · split at h
    · simp at h
    · split at h
      · simp at h
      · split at h
        · split at h
          · exact haddition _ h
          · split at h
            · cases h
              decide
            · simp at h
        · simp at h
  · simp at h

/-- A statement is one on rows just if its leading words say so. -/
theorem classify_rows_iff {tokens : List Token} {kind : StatementKind} (hrow : kind ∈ onRows) :
    classify tokens = .ok kind ↔ ofWords? (leadingWords 4 (significant tokens)) = some kind := by
  unfold classify
  generalize significant tokens = tokens
  cases tokens with
  | nil =>
      refine iff_of_false (by simp [ofSignificant]) ?_
      rw [leadingWords_nil, ofWords?_nil]
      simp
  | cons first rest =>
      cases hbare : first.kind.isBare with
      | false =>
          refine iff_of_false (by simp [ofSignificant, hbare]) ?_
          have hnone : leadingWords 4 (first :: rest) = [] := by simp [leadingWords, hbare]
          rw [hnone, ofWords?_nil]
          simp
      | true =>
          rw [ofSignificant, if_pos hbare, except_bind_ok, decidingWords]
          by_cases hdefiner : leadingWords 4 (first :: rest) = ["CREATE".toList, "DEFINER"]
          · -- behind a definer something is created, which is no statement on rows
            rw [if_pos hdefiner, hdefiner]
            refine iff_of_false ?_ fun h => ofWords?_create _ h hrow
            rintro ⟨words, hwords, h⟩
            obtain ⟨rest, -, rfl⟩ := except_map_ok.1 hwords
            split at h
            · next kind' hkind' =>
                cases h
                exact ofWords?_create _ hkind' hrow
            · exact absurd h (by simp)
          · rw [if_neg hdefiner]
            constructor
            · rintro ⟨words, hwords, h⟩
              obtain rfl := Except.ok.inj hwords
              split at h
              · next kind' hkind' =>
                  cases h
                  exact hkind'
              · split at h
                · exact absurd hrow (ofAlter_not_row h)
                · simp at h
            · intro h
              refine ⟨_, rfl, ?_⟩
              rw [h]

end StatementKind

/-- Two statements on rows that differ in literals only are refused for the same cause, or they
become the same text with the same parameter names, and each parameter holds what its literal
does. -/
theorem restate_alike (settings : Settings) (tablePrefix : Text) {sql sql' : Text}
    {kind : StatementKind} (htokens : tokenize sql = .ok ts) (htokens' : tokenize sql' = .ok us)
    (hkind : StatementKind.classify ts = .ok kind) (hrow : kind ∈ StatementKind.onRows)
    (halike : Alike none none ts us) :
    (∃ e e', (restate settings tablePrefix sql).outcome = .error e ∧
      (restate settings tablePrefix sql').outcome = .error e' ∧ e.cause = e'.cause) ∨
    ∃ text params params',
      (restate settings tablePrefix sql).outcome =
        .ok ⟨[⟨.sql text, params⟩], some kind, tablePrefix⟩ ∧
      (restate settings tablePrefix sql').outcome =
        .ok ⟨[⟨.sql text, params'⟩], some kind, tablePrefix⟩ ∧
      params.keys = params'.keys ∧
      params.map Prod.snd = (freeLiterals none ts).map Token.value ∧
      params'.map Prod.snd = (freeLiterals none us).map Token.value := by
  have hlike := halike.forall₂
  have hkind' : StatementKind.classify us = .ok kind := by
    rw [StatementKind.classify_rows_iff hrow, ← StatementKind.leadingWords_like hlike]
    exact (StatementKind.classify_rows_iff hrow).1 hkind
  rw [restate_of_kind tablePrefix htokens hkind, restate_of_kind tablePrefix htokens' hkind',
    queriesOfKind_rows hrow, queriesOfKind_rows hrow]
  -- binding comes first: if it fails, it fails for both in the same way
  have hsame : Parameter.SameBound (Parameter.extract settings.placeholderStem.inserted ts)
      (Parameter.extract settings.placeholderStem.inserted us) := by
    unfold Parameter.extract
    rw [← Parameter.naming_like hlike]
    refine Parameter.bindFrom_alike halike ?_ 0
    intro t _ _
    rfl
  cases hbound : Parameter.extract settings.placeholderStem.inserted ts with
  | error e =>
      rw [hbound] at hsame
      cases hbound' : Parameter.extract settings.placeholderStem.inserted us with
      | error e' =>
          rw [hbound'] at hsame
          obtain rfl : e = e' := hsame
          rw [rowQuery_of_unbound hbound, rowQuery_of_unbound hbound']
          exact .inl ⟨e, e, rfl, rfl, rfl⟩
      | ok bound' =>
          rw [hbound'] at hsame
          exact hsame.elim
  | ok bound =>
      rw [hbound] at hsame
      cases hbound' : Parameter.extract settings.placeholderStem.inserted us with
      | error e' =>
          rw [hbound'] at hsame
          exact hsame.elim
      | ok bound' =>
          rw [hbound'] at hsame
          obtain ⟨hunplaced, hkeys⟩ := hsame
          have hvalues := (Parameter.binds_of_extract hbound).values
          have hvalues' := (Parameter.binds_of_extract hbound').values
          rw [rowQuery_of_bound hbound, rowQuery_of_bound hbound',
            ← restateRows_congr settings.functions kind hunplaced]
          cases restateRows settings.functions kind bound.tokens with
          | error e =>
              refine .inl ⟨e.about sql, e.about sql', rfl, rfl, ?_⟩
              rw [Error.cause_about, Error.cause_about]
          | ok text =>
              exact .inr ⟨text, bound.params, bound'.params, rfl, rfl, hkeys, hvalues, hvalues'⟩

/-- Whatever the literal of a query holds, quotes and comments as well, its text is the same. -/
theorem restate_alike_select :
    ∃ settings ts us, Settings.load .builtIn = .ok settings ∧ tokenize "SELECT 'a'" = .ok ts ∧
      tokenize "SELECT ''';--'" = .ok us ∧ Alike none none ts us ∧
      ∃ text params params',
        (restate settings [] "SELECT 'a'").outcome =
          .ok ⟨[⟨.sql text, params⟩], some .select, []⟩ ∧
        (restate settings [] "SELECT ''';--'").outcome =
          .ok ⟨[⟨.sql text, params'⟩], some .select, []⟩ ∧
        params.keys = params'.keys ∧
        params.map Prod.snd = (freeLiterals none ts).map Token.value ∧
        params'.map Prod.snd = (freeLiterals none us).map Token.value := by
  obtain ⟨settings, hload, hok⟩ := exists_of_passes (show passes (fun settings =>
      passes (fun _ => true) (restate settings [] "SELECT 'a'").outcome)
      (Settings.load .builtIn) = true by decide +kernel)
  obtain ⟨ts, htokens, h⟩ := exists_of_passes (show passes (fun ts =>
      passes (· == .select) (StatementKind.classify ts)
        && passes (fun us => decide (Alike none none ts us)) (tokenize "SELECT ''';--'"))
      (tokenize "SELECT 'a'") = true by decide +kernel)
  obtain ⟨hkind, h⟩ := Bool.and_eq_true_iff.1 h
  obtain ⟨kind, hkind, hselect⟩ := exists_of_passes hkind
  obtain rfl := eq_of_beq hselect
  obtain ⟨us, htokens', halike⟩ := exists_of_passes h
  have halike := of_decide_eq_true halike
  refine ⟨settings, ts, us, hload, htokens, htokens', halike, ?_⟩
  rcases restate_alike settings [] htokens htokens' hkind (by decide) halike with
    ⟨e, -, he, -⟩ | h
  · rw [he] at hok
    exact absurd hok (by simp [passes])
  · exact h

end Restate

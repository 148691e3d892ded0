import Restate.Proofs.Schema.AddedParts

/-!
# The edits of an added column

A statement that adds a column is restated by cutting stretches out of its text. The reading of the
statement passes its tokens from left to right, and what it cuts out are the tokens that the marks
leave out, with the gaps before them. Main statement: the edits make the text of the statement's
parts (`AddedColumn.restateAddColumn_ok`).
-/

namespace Restate

namespace AddedColumn

variable {sql : Text} {c c' : Cursor} {rest : List Token}

/-- The cursor stands in the statement right before the given tokens: what it has passed ends where
they begin, and their significant ones lie ahead, but for a tail without literals. -/
structure Stands (sql : Text) (c : Cursor) (rest : List Token) : Prop where
  source : sql.drop c.reached = sourceText rest
  tiles : Tiles c.reached rest sql.length
  ahead : ∃ tail, significant rest = c.ahead ++ tail ∧ ∀ t ∈ tail, t.kind ≠ .string

/-- Between the cursor and what stands behind the next token there are a gap and the token. -/
structure Passes (sql : Text) (c : Cursor) (gap : List Token) (t : Token) (rest : List Token) :
    Prop where
  isGap : ∀ u ∈ gap, u.isTrivia = true
  isToken : t.isTrivia = false
  stands : Stands sql (c.skip 1) rest
  reached : (c.skip 1).reached = t.stop
  reached_le : c.reached ≤ t.start
  start_le : t.start ≤ t.stop
  take_start : sql.take t.start = sql.take c.reached ++ sourceText gap
  take_stop : sql.take t.stop = sql.take c.reached ++ sourceText gap ++ t.text

namespace Stands

/-- Before the first token a cursor stands at the beginning of the statement. -/
theorem ofTokens {tokens : List Token} (h : tokenize sql = .ok tokens) :
    Stands sql (Cursor.ofTokens (significant tokens)) tokens := by
  obtain ⟨hsource, htiles, -⟩ := tiles_of_tokenize h
  refine ⟨by simpa [Cursor.reached, Cursor.ofTokens] using hsource.symm, htiles, ?_⟩
  unfold Cursor.ofTokens Cursor.withoutSemicolon
  split
  · next t hlast =>
      split
      · next hsemicolon =>
          refine ⟨[t], (List.dropLast_append_getLast? t hlast).symm, ?_⟩
          intro u hu hstring
          obtain rfl : u = t := by simpa using hu
          simp [Token.isPunct, hstring] at hsemicolon
      · exact ⟨[], by simp⟩
  · exact ⟨[], by simp⟩

/-- If a token lies ahead, there is a gap before it. -/
theorem uncons {t : Token} {ts : List Token} (h : Stands sql c rest) (hahead : c.ahead = t :: ts) :
    ∃ gap rest', rest = gap ++ t :: rest' ∧ Passes sql c gap t rest' := by
  obtain ⟨hsource, htiles, tail, htail, hstrings⟩ := h
  rw [hahead, List.cons_append] at htail
  obtain ⟨gap, rest', rfl, hgap, ht, hrest'⟩ := List.filter_eq_cons_iff.1 htail
  obtain ⟨middle, hgapTiles, -, rfl, hstop, hrestTiles⟩ := Tiles.append_iff.1 htiles
  have hreached : (c.skip 1).reached = t.stop := by simp [Cursor.reached, Cursor.skip, hahead]
  have hstart : t.start = c.reached + (sourceText gap).length := hgapTiles.stop_eq
  have hreach : (sql.take c.reached).length = c.reached := by
    have := htiles.stop_eq
    simp only [List.length_take]
    omega
  have hbefore : (sql.take c.reached ++ sourceText gap).length = t.start := by
    rw [List.length_append, hreach, hstart]
  have hbehind : (sql.take c.reached ++ sourceText gap ++ t.text).length = t.stop := by
    rw [List.length_append, hbefore, hstop]
  -- the source is what the cursor has passed, the gap, the token, and what follows it
  have hsql : sql = sql.take c.reached ++ sourceText gap ++ t.text ++ sourceText rest' := by
    conv_lhs => rw [← List.take_append_drop c.reached sql, hsource]
    simp [sourceText]
  refine ⟨gap, rest', rfl, by simpa using hgap, by simpa using ht, ⟨?_, ?_, tail, ?_, hstrings⟩,
    hreached, by omega, by omega, ?_, ?_⟩
  · rw [hreached]
    conv_lhs => rw [hsql]
    exact List.drop_left' hbehind
  · rwa [hreached]
  · rw [Cursor.ahead_skip, hahead]
    exact hrest'
  · conv_lhs => rw [hsql, List.append_assoc _ t.text]
    exact List.take_left' hbefore
  · conv_lhs => rw [hsql]
    exact List.take_left' hbehind

end Stands

/-- The edit that requotes a literal, unless SQLite writes it the same way. -/
def requoting? (t : Token) : Option Edit :=
  if t.kind = .string ∧ quoteString t.value ≠ t.text then
    some ⟨t.start, t.stop, quoteString t.value⟩
  else none

theorem length_pos_of_head {ts : List Token} {p : Token → Bool} (h : ts.head?.any p = true) :
    0 < ts.length := by
  cases ts with
  | nil => simp at h
  | cons t ts => simp

/-- The part is a clause of `n` tokens that is left out with the gap before it. -/
structure Drops (c : Cursor) (n : Nat) (part : AddedPart) (c' : Cursor) : Prop where
  pos : 0 < n
  le : n ≤ c.ahead.length
  skip : c' = c.skip n
  edit : part.edit? = some ⟨c.reached, c'.reached, []⟩

theorem drops_of_removal {part : Edit → AddedPart} (hpart : ∀ edit, (part edit).edit? = some edit)
    {n : Nat} {a : AddedPart} (hpos : 0 < n) (hle : n ≤ c.ahead.length)
    (h : (do return part (← Reading.removalSince c) : Reading AddedPart) (c.skip n) = (.ok a, c')) :
    Drops c n a c' := by
  obtain ⟨edit, middle, hedit, hrest⟩ := Reading.bind_ok h
  obtain ⟨rfl, rfl⟩ := Reading.removalSince_ok hedit
  obtain ⟨rfl, rfl⟩ := Reading.pure_ok hrest
  exact ⟨hpos, hle, rfl, hpart _⟩

/-- A part of the statement behind the type is a clause that is left out, or one token that
stays. -/
theorem addedPart_ok {part : AddedPart} (h : Reading.addedPart c = (.ok part, c')) :
    Drops c (clauseLength c.ahead) part c' ∨
    (clauseLength c.ahead = 0 ∧ c' = c.skip 1 ∧
      ∃ t, c.ahead.head? = some t ∧ part.edit? = requoting? t) := by
  unfold Reading.addedPart at h
  obtain ⟨before, middle, hbefore, hset⟩ := Reading.bind_ok h
  obtain ⟨rfl, rfl⟩ := Reading.here_ok hbefore
  obtain ⟨set, middle, hset, hrest⟩ := Reading.bind_ok hset
  unfold clauseLength
  -- the words that begin a clause are tried one after another, in the order of the reading
  rcases Reading.acceptCharacterSet_ok hset with
    ⟨rfl, hcharacter, rfl⟩ | ⟨rfl, hcharacter, hcharset, rfl⟩ | ⟨rfl, hcharacter, hcharset, rfl⟩
  · -- `CHARACTER SET`
    obtain ⟨_, middle, hsetting, hrest⟩ := Reading.bind_ok hrest
    obtain ⟨hle, rfl⟩ := Reading.skipSetting_ok hsetting
    rw [Cursor.skip_skip] at hrest
    have htwo : 2 ≤ c.ahead.length := Reading.length_le_of_beginsWith hcharacter
    rw [Cursor.ahead_skip, List.length_drop] at hle
    simp only [hcharacter, if_true]
    exact .inl (drops_of_removal (fun _ => rfl) (by omega) (by omega) hrest)
  · -- `CHARSET` or `COLLATE`
    obtain ⟨_, middle, hsetting, hrest⟩ := Reading.bind_ok hrest
    obtain ⟨hle, rfl⟩ := Reading.skipSetting_ok hsetting
    rw [Cursor.skip_skip] at hrest
    have hone := length_pos_of_head hcharset
    rw [Cursor.ahead_skip, List.length_drop] at hle
    simp only [hcharacter, hcharset, Bool.false_eq_true, if_true, if_false]
    exact .inl (drops_of_removal (fun _ => rfl) (by omega) (by omega) hrest)
  simp only [hcharacter, hcharset, Bool.false_eq_true, if_false, Cursor.skip_zero] at hrest ⊢
  obtain ⟨first, middle, hfirst, hrest⟩ := Reading.bind_ok hrest
  obtain ⟨hsome, rfl⟩ := Reading.accept_isSome hfirst
  rw [← hsome]
  cases hfirst : first.isSome with
  | true =>
      simp only [hfirst, if_true] at hsome hrest ⊢
      exact .inl (drops_of_removal (fun _ => rfl) Nat.one_pos (length_pos_of_head hsome.symm) hrest)
  | false =>
  simp only [hfirst, Bool.false_eq_true, if_false, Cursor.skip_zero] at hrest ⊢
  obtain ⟨placed, middle, hplaced, hrest⟩ := Reading.bind_ok hrest
  obtain ⟨hsome, rfl⟩ := Reading.accept_isSome hplaced
  rw [← hsome]
  cases hplaced : placed.isSome with
  | true =>
      simp only [hplaced, if_true] at hrest ⊢
      obtain ⟨t, middle, hadvance, hrest⟩ := Reading.bind_ok hrest
      obtain ⟨hhead, rfl⟩ := Reading.advance_ok hadvance
      rw [Cursor.skip_skip] at hrest
      have hlength := length_pos_of_head (p := fun _ => true) (by rw [hhead]; rfl)
      rw [Cursor.ahead_skip, List.length_drop] at hlength
      exact .inl (drops_of_removal (fun _ => rfl) (by omega) (by omega) hrest)
  | false =>
  simp only [hplaced, Bool.false_eq_true, if_false, Cursor.skip_zero] at hrest ⊢
  obtain ⟨update, middle, hupdate, hrest⟩ := Reading.bind_ok hrest
  obtain ⟨rfl, rfl⟩ := Reading.acceptWords_ok hupdate
  cases hupdate : Reading.beginsWith ["ON", "UPDATE"] c.ahead with
  | true =>
      simp only [hupdate, if_true] at hrest ⊢
      obtain ⟨_, middle, hrule, hrest⟩ := Reading.bind_ok hrest
      obtain ⟨hle, rfl⟩ := Reading.skipUpdateRule_ok hrule
      rw [Cursor.skip_skip] at hrest
      have htwo := Reading.length_le_of_beginsWith hupdate
      simp only [List.length_cons, List.length_nil, Nat.reduceAdd, Cursor.ahead_skip,
        List.drop_drop, List.length_drop] at htwo hle hrest ⊢
      rw [← Nat.add_assoc] at hrest
      exact .inl (drops_of_removal (fun _ => rfl) (by omega) (by omega) hrest)
  | false =>
  simp only [hupdate, Bool.false_eq_true, if_false, Cursor.skip_zero] at hrest ⊢
  obtain ⟨numbered, middle, hnumbered, hrest⟩ := Reading.bind_ok hrest
  obtain ⟨hsome, rfl⟩ := Reading.accept_isSome hnumbered
  rw [← hsome]
  cases hnumbered : numbered.isSome with
  | true =>
      simp only [hnumbered, if_true] at hsome hrest ⊢
      exact .inl (drops_of_removal (fun _ => rfl) Nat.one_pos (length_pos_of_head hsome.symm) hrest)
  | false =>
  simp only [hnumbered, Bool.false_eq_true, if_false, Cursor.skip_zero] at hrest ⊢
  obtain ⟨t, middle, hadvance, hrest⟩ := Reading.bind_ok hrest
  obtain ⟨hhead, rfl⟩ := Reading.advance_ok hadvance
  refine .inr ⟨trivial, ?_⟩
  split at hrest
  · next hquoted =>
      obtain ⟨rfl, rfl⟩ := Reading.pure_ok hrest
      exact ⟨rfl, t, hhead, by simp [requoting?, hquoted, AddedPart.edit?]⟩
  · next hquoted =>
      obtain ⟨rfl, rfl⟩ := Reading.pure_ok hrest
      exact ⟨rfl, t, hhead, by simp [requoting?, hquoted, AddedPart.edit?]⟩

/-- An edit in a text that is the source's up to the edit's end. -/
theorem apply_take {start stop : Nat} (hle : start ≤ stop) (hstop : stop ≤ sql.length)
    (replacement X : Text) :
    Edit.apply ⟨start, stop, replacement⟩ (sql.take stop ++ X) =
      sql.take start ++ replacement ++ X := by
  have hlength : (sql.take stop).length = stop := by
    rw [List.length_take]
    omega
  have hbefore : start ≤ (sql.take stop).length := by
    rwa [hlength]
  simp only [Edit.apply]
  rw [List.take_append_of_le_length hbefore, List.take_take, Nat.min_eq_left hle,
    List.drop_left' hlength]

namespace Stands

theorem reached_le (h : Stands sql c rest) : c.reached ≤ sql.length := by
  have := h.tiles.stop_eq
  omega

/-- Tokens that are left out leave nothing. -/
theorem skip_drop {n : Nat} (h : Stands sql c rest) (hn : n ≤ c.ahead.length) :
    ∃ rest', Stands sql (c.skip n) rest' ∧ c.reached ≤ (c.skip n).reached ∧
      ∀ ms, weave (List.replicate n .drop ++ ms) rest = weave ms rest' := by
  induction n generalizing c rest with
  | zero => exact ⟨rest, by simpa using h, by simp, fun ms => rfl⟩
  | succ n ih =>
      obtain ⟨t, ts, hahead⟩ := List.exists_cons_of_length_pos (Nat.lt_of_lt_of_le n.succ_pos hn)
      obtain ⟨gap, next, rfl, hpass⟩ := h.uncons hahead
      obtain ⟨rest', hrest', hle, hweave⟩ :=
        ih hpass.stands (by simp only [Cursor.ahead_skip, List.length_drop]; omega)
      have hstep : c.reached ≤ (c.skip 1).reached := by
        rw [hpass.reached]
        exact le_trans hpass.reached_le hpass.start_le
      rw [Cursor.skip_skip, Nat.add_comm] at hrest' hle
      refine ⟨rest', hrest', le_trans hstep hle, ?_⟩
      intro ms
      rw [List.replicate_succ, List.cons_append, weave_gap hpass.isGap, weave_drop hpass.isToken,
        hweave]
      rfl

/-- Tokens that stay are written as they are, if no literal is among them. -/
theorem skip_keep {n : Nat} (h : Stands sql c rest) (hn : n ≤ c.ahead.length)
    (hstrings : ∀ t ∈ c.ahead.take n, t.kind ≠ .string) :
    ∃ rest', Stands sql (c.skip n) rest' ∧
      ∀ ms, sql.take c.reached ++ written (weave (List.replicate n .keep ++ ms) rest) =
        sql.take (c.skip n).reached ++ written (weave ms rest') := by
  induction n generalizing c rest with
  | zero => exact ⟨rest, by simpa using h, fun ms => by simp⟩
  | succ n ih =>
      obtain ⟨t, ts, hahead⟩ := List.exists_cons_of_length_pos (Nat.lt_of_lt_of_le n.succ_pos hn)
      obtain ⟨gap, next, rfl, hpass⟩ := h.uncons hahead
      have hkind := hstrings t (by simp [hahead])
      obtain ⟨rest', hrest', hweave⟩ :=
        ih hpass.stands (by simp only [Cursor.ahead_skip, List.length_drop]; omega) (by
          intro u hu
          apply hstrings u
          rw [hahead, List.take_succ_cons]
          simp only [Cursor.ahead_skip, hahead, List.drop_succ_cons, List.drop_zero] at hu
          exact List.mem_cons_of_mem t hu)
      rw [Cursor.skip_skip, Nat.add_comm] at hrest' hweave
      refine ⟨rest', hrest', ?_⟩
      intro ms
      rw [← hweave, hpass.reached, hpass.take_stop, List.replicate_succ, List.cons_append,
        weave_gap hpass.isGap, weave_keep hpass.isToken]
      simp [written_gap, text_of_ne_string hkind]

end Stands

theorem requoting_none {t : Token} (h : requoting? t = none) : (Part.token t).text = t.text := by
  unfold requoting? at h
  split at h
  · simp at h
  · next hsame =>
      simp only [Part.text]
      split
      · next hkind => simpa [hkind] using hsame
      · rfl

theorem requoting_some {t : Token} {edit : Edit} (h : requoting? t = some edit) :
    edit = ⟨t.start, t.stop, (Part.token t).text⟩ := by
  unfold requoting? at h
  split at h
  · next hstring =>
      cases h
      simp [Part.text, hstring.1]
  · simp at h

theorem tailMarks_keep {t : Token} {ts : List Token} (h : clauseLength (t :: ts) = 0) :
    tailMarks (t :: ts) = .keep :: tailMarks ts := by
  rw [tailMarks, h]

theorem tailMarks_drop {ts : List Token} (h : 0 < clauseLength ts)
    (hle : clauseLength ts ≤ ts.length) :
    tailMarks ts =
      List.replicate (clauseLength ts) .drop ++ tailMarks (ts.drop (clauseLength ts)) := by
  cases ts with
  | nil =>
      rw [List.length_nil] at hle
      omega
  | cons t ts =>
      obtain ⟨n, hn⟩ := Nat.exists_eq_succ_of_ne_zero (Nat.ne_of_gt h)
      rw [tailMarks, hn, List.drop_succ_cons]

/-- The edits behind the type make the text that the marks of the tokens there make. -/
theorem applyAll_tail {parts : List AddedPart} (h : Stands sql c rest)
    (hcollect : Reading.collect Reading.addedPart c = (parts, .ok (), c')) :
    Edit.applyAll (parts.filterMap AddedPart.edit?) sql =
      sql.take c.reached ++ written (weave (tailMarks c.ahead) rest) := by
  -- a clause is several tokens, so the induction is on how many stand ahead
  induction hlength : c.ahead.length using Nat.strong_induction_on generalizing c rest parts with
  | _ length ih =>
  cases hahead : c.ahead with
  | nil =>
      have hend : c.atEnd = true := by simp [Cursor.atEnd, hahead]
      rw [Reading.collect, hend] at hcollect
      obtain ⟨rfl, -⟩ := Prod.mk.inj hcollect
      obtain ⟨hsource, -, tail, htail, hstrings⟩ := h
      rw [hahead, List.nil_append] at htail
      rw [tailMarks, written_weave_nil (htail ▸ hstrings), ← hsource, List.take_append_drop]
      rfl
  | cons t ts =>
      obtain ⟨part, middle, more, hpart, rfl, hmore⟩ := Reading.collect_cons_ok hahead hcollect
      rcases addedPart_ok hpart with ⟨hpos, hle, hskip, hedit⟩ | ⟨hzero, hskip, u, hu, hedit⟩
      · -- a clause that is left out
        obtain ⟨rest', hrest', hreached, hweave⟩ := h.skip_drop hle
        rw [← hskip] at hrest' hreached
        have hlt : middle.ahead.length < c.ahead.length := by
          rw [hskip, Cursor.ahead_skip, List.length_drop]
          omega
        have ih := ih _ (hlength ▸ hlt) hrest' (hmore hlt) rfl
        have hmarks := tailMarks_drop hpos hle
        rw [← hahead, List.filterMap_cons, hedit, Edit.applyAll, List.foldr_cons, ← Edit.applyAll,
          ih, apply_take hreached hrest'.reached_le, hmarks, hweave, hskip, Cursor.ahead_skip]
        simp
      · -- a token that stays
        obtain rfl : t = u := by simpa [hahead] using hu
        rw [hahead] at hzero
        obtain ⟨gap, rest', rfl, hpass⟩ := h.uncons hahead
        have hahead' : middle.ahead = ts := by
          rw [hskip, Cursor.ahead_skip, hahead, List.drop_succ_cons, List.drop_zero]
        have hlt : middle.ahead.length < c.ahead.length := by
          rw [hahead', hahead, List.length_cons]
          omega
        have ih := ih _ (hlength ▸ hlt) (hskip ▸ hpass.stands) (hmore hlt) rfl
        rw [hahead', hskip, hpass.reached] at ih
        rw [tailMarks_keep hzero, weave_gap hpass.isGap, weave_keep hpass.isToken,
          List.filterMap_cons, hedit]
        cases hquoted : requoting? t with
        | none =>
            rw [ih, hpass.take_stop]
            simp [written_gap, requoting_none hquoted]
        | some edit =>
            obtain rfl := requoting_some hquoted
            have hle := hpass.reached ▸ hpass.stands.reached_le
            rw [Edit.applyAll, List.foldr_cons, ← Edit.applyAll, ih, apply_take hpass.start_le hle,
              hpass.take_start]
            simp [written_gap]

theorem kind_of_isWord {t : Token} {words : List Text} (h : t.isWord words = true) :
    t.kind ≠ .string := by
  intro hstring
  simp [Token.isWord, hstring, TokenKind.isBare] at h

theorem kind_of_isName {t : Token} (h : t.isName) : t.kind ≠ .string := by
  intro hstring
  simp [Token.isName, hstring, TokenKind.isBare] at h

/-- The next tokens, so many, are there, and no literal is among them. -/
def Plain (n : Nat) (c : Cursor) : Prop :=
  n ≤ c.ahead.length ∧ ∀ t ∈ c.ahead.take n, t.kind ≠ .string

namespace Plain

theorem one {t : Token} (hhead : c.ahead.head? = some t) (hkind : t.kind ≠ .string) :
    Plain 1 c := by
  obtain ⟨ts, hahead⟩ := List.head?_eq_some_iff.1 hhead
  refine ⟨by simp [hahead], ?_⟩
  intro u hu
  obtain rfl : u = t := by simpa [hahead] using hu
  exact hkind

theorem add {m n : Nat} (hm : Plain m c) (hn : Plain n (c.skip m)) : Plain (m + n) c := by
  obtain ⟨hmle, hm⟩ := hm
  obtain ⟨hnle, hn⟩ := hn
  rw [Cursor.ahead_skip, List.length_drop] at hnle
  refine ⟨by omega, ?_⟩
  intro t ht
  rw [List.take_add, List.mem_append] at ht
  rcases ht with ht | ht
  · exact hm t ht
  · exact hn t ht

end Plain

theorem alterTable_ok {table : Text} (h : Reading.alterTable c = (.ok table, c')) :
    Plain 3 c ∧ c' = c.skip 3 := by
  obtain ⟨_, middle, halter, hrest⟩ := Reading.bind_ok h
  obtain ⟨hhead, hword, rfl⟩ := Reading.expectWord_ok halter
  have hone := Plain.one hhead (kind_of_isWord hword)
  obtain ⟨_, middle, htable, hrest⟩ := Reading.bind_ok hrest
  obtain ⟨hhead, hword, rfl⟩ := Reading.expectWord_ok htable
  have htwo := hone.add (Plain.one hhead (kind_of_isWord hword))
  obtain ⟨t, hhead, hname, -, rfl⟩ := Reading.identifier_ok (Reading.tableName_ok hrest)
  rw [Cursor.skip_skip, Cursor.skip_skip]
  rw [Cursor.skip_skip] at hhead
  exact ⟨htwo.add (Plain.one hhead (kind_of_isName hname)), rfl⟩

theorem reached_skip_of_lastPassed {t last : Token} {n : Nat} (hpos : 0 < n)
    (hhead : c.ahead.head? = some t) (h : Reading.lastPassed t (c.skip n) = (.ok last, c')) :
    last.stop = (c.skip n).reached ∧ c' = c.skip n := by
  obtain ⟨d, middle, hd, hrest⟩ := Reading.bind_ok h
  obtain ⟨rfl, rfl⟩ := Reading.here_ok hd
  obtain ⟨rfl, rfl⟩ := Reading.pure_ok hrest
  obtain ⟨ts, hahead⟩ := List.head?_eq_some_iff.1 hhead
  cases hpassed : (c.skip n).passed.head? with
  | none =>
      rw [List.head?_eq_none_iff] at hpassed
      obtain ⟨n, rfl⟩ := Nat.exists_eq_succ_of_ne_zero (Nat.ne_of_gt hpos)
      simp [Cursor.skip, hahead] at hpassed
  | some u => simp [Cursor.reached, hpassed]

theorem typeLength_pos (ts : List Token) : 0 < typeLength ts := by
  have : 0 < typeWords ts := by
    unfold typeWords
    split
    · omega
    · omega
  simp only [typeLength]
  omega

theorem typeWords_two {ts : List Token} (h : Reading.beginsWith ["DOUBLE", "PRECISION"] ts = true) :
    typeWords ts = 2 ∧ typeName ts = "double precision".toList := by
  have hwords : typeWords ts = 2 := by rw [typeWords, h, if_pos rfl]
  exact ⟨hwords, by rw [typeName, hwords, if_pos rfl]⟩

theorem typeWords_one {t : Token} {ts : List Token}
    (h : Reading.beginsWith ["DOUBLE", "PRECISION"] (t :: ts) = false) :
    typeWords (t :: ts) = 1 ∧ typeName (t :: ts) = t.text := by
  have hwords : typeWords (t :: ts) = 1 := by
    rw [typeWords, h]
    rfl
  refine ⟨hwords, ?_⟩
  rw [typeName, hwords]
  rfl

/-- Behind the words of a type its arguments and modifiers are passed. -/
theorem typeEnd_ok {types : Fields Text} {base : Text} {first : Token} {span : TypeSpan}
    (hhead : c.ahead.head? = some first) (hwords : typeWords c.ahead ≤ c.ahead.length)
    (h : (do
      Reading.skipGroup
      Reading.columnType.skipModifiers
      let target ← Reading.lift (mapType types base)
      return ⟨target, first, ← Reading.lastPassed first⟩ : Reading TypeSpan)
        (c.skip (typeWords c.ahead)) = (.ok span, c')) :
    typeLength c.ahead ≤ c.ahead.length ∧ c' = c.skip (typeLength c.ahead) ∧
      span.first = first ∧ span.last.stop = c'.reached ∧ mapType types base = .ok span.target := by
  obtain ⟨_, middle, hgroup, hrest⟩ := Reading.bind_ok h
  obtain rfl := Reading.skipGroup_ok hgroup
  obtain ⟨_, middle, hmodifiers, hrest⟩ := Reading.bind_ok hrest
  obtain rfl := Reading.skipModifiers_ok hmodifiers
  obtain ⟨target, middle, htarget, hrest⟩ := Reading.bind_ok hrest
  obtain ⟨hmap, rfl⟩ := Reading.lift_ok htarget
  obtain ⟨last, middle, hlast, hrest⟩ := Reading.bind_ok hrest
  obtain ⟨rfl, rfl⟩ := Reading.pure_ok hrest
  have hpos := typeLength_pos c.ahead
  have hgroupLe := groupLength_le (c.ahead.drop (typeWords c.ahead))
  have hmodifiersLe := modifiersLength_le
    (c.ahead.drop (typeWords c.ahead + groupLength (c.ahead.drop (typeWords c.ahead))))
  have hlength : typeLength c.ahead =
      typeWords c.ahead + groupLength (c.ahead.drop (typeWords c.ahead)) + modifiersLength
        (c.ahead.drop (typeWords c.ahead + groupLength (c.ahead.drop (typeWords c.ahead)))) := rfl
  rw [List.length_drop] at hgroupLe hmodifiersLe
  simp only [Cursor.skip_skip, Cursor.ahead_skip] at hlast
  rw [← hlength] at hlast
  obtain ⟨hstop, rfl⟩ := reached_skip_of_lastPassed (by omega) hhead hlast
  exact ⟨by omega, rfl, rfl, hstop, hmap⟩

/-- A column type that is read: how far it goes, and what word it gets. -/
theorem columnType_ok {types : Fields Text} {span : TypeSpan}
    (h : Reading.columnType types c = (.ok span, c')) :
    typeLength c.ahead ≤ c.ahead.length ∧ c' = c.skip (typeLength c.ahead) ∧
      c.ahead.head? = some span.first ∧ span.last.stop = c'.reached ∧
      mapType types (typeName c.ahead) = .ok span.target := by
  obtain ⟨first, middle, hfirst, hrest⟩ := Reading.bind_ok h
  obtain ⟨hhead, rfl⟩ := Reading.advance_ok hfirst
  obtain ⟨ts, hahead⟩ := List.head?_eq_some_iff.1 hhead
  split at hrest
  · exact (Reading.fail_not_ok hrest).elim
  have hpos : 0 < c.ahead.length := by simp [hahead]
  -- however the second word is looked for, the words passed are those of the type
  have hwords : ∃ base, base = typeName c.ahead ∧ typeWords c.ahead ≤ c.ahead.length ∧ (do
      Reading.skipGroup
      Reading.columnType.skipModifiers
      let target ← Reading.lift (mapType types base)
      return ⟨target, first, ← Reading.lastPassed first⟩ : Reading TypeSpan)
        (c.skip (typeWords c.ahead)) = (.ok span, c') := by
    dsimp only at hrest
    split at hrest
    · next hdouble =>
        obtain ⟨precise, middle, hprecise, hrest⟩ := Reading.bind_ok hrest
        obtain ⟨hsome, rfl⟩ := Reading.accept_isSome hprecise
        have hbegins : Reading.beginsWith ["DOUBLE", "PRECISION"] c.ahead = precise.isSome := by
          rw [hsome, Cursor.ahead_skip, hahead, List.drop_succ_cons, List.drop_zero]
          cases ts with
          | nil => simp [Reading.beginsWith]
          | cons u ts =>
              simp only [Reading.beginsWith, hdouble, Bool.true_and, Bool.and_true, List.head?_cons,
                Option.any_some]
        rw [Cursor.skip_skip] at hrest
        cases hprecise : precise.isSome with
        | true =>
            rw [hprecise] at hbegins hrest
            obtain ⟨hwords, hname⟩ := typeWords_two hbegins
            have hle := Reading.length_le_of_beginsWith hbegins
            refine ⟨_, hname.symm, hwords ▸ hle, ?_⟩
            rw [hwords]
            exact hrest
        | false =>
            rw [hprecise] at hbegins hrest
            rw [hahead] at hbegins
            obtain ⟨hwords, hname⟩ := typeWords_one hbegins
            rw [← hahead] at hwords hname
            exact ⟨_, hname.symm, by omega, hwords ▸ hrest⟩
    · next hdouble =>
        obtain ⟨precise, middle, hprecise, hrest⟩ := Reading.bind_ok hrest
        obtain ⟨rfl, rfl⟩ := Reading.pure_ok hprecise
        have hbegins : Reading.beginsWith ["DOUBLE", "PRECISION"] (first :: ts) = false := by
          cases ts with
          | nil => simp [Reading.beginsWith]
          | cons u ts => simp only [Reading.beginsWith, hdouble, Bool.false_and]
        obtain ⟨hwords, hname⟩ := typeWords_one hbegins
        rw [← hahead] at hwords hname
        exact ⟨_, hname.symm, by omega, hwords ▸ hrest⟩
  obtain ⟨base, rfl, hle, htype⟩ := hwords
  obtain ⟨hle, hskip, rfl, hstop, htarget⟩ := typeEnd_ok hhead hle htype
  exact ⟨hle, hskip, hhead, hstop, htarget⟩

theorem beginsWith_one (word : Text) (ts : List Token) :
    Reading.beginsWith [word] ts = ts.head?.any (·.isWord [word]) := by
  cases ts with
  | nil => rfl
  | cons t ts => simp [Reading.beginsWith]

/-- The head of the statement: no literal stands before the type, and the type is read. -/
theorem addedHead_ok {types : Fields Text} {head : AddedHead}
    (h : Reading.addedHead types c = (.ok head, c')) :
    ∃ type, type = c.skip (headLength c.ahead) ∧ Plain (headLength c.ahead) c ∧
      typeLength type.ahead ≤ type.ahead.length ∧ c' = type.skip (typeLength type.ahead) ∧
      type.ahead.head? = some head.type.first ∧ head.type.last.stop = c'.reached ∧
      mapType types (typeName type.ahead) = .ok head.type.target := by
  obtain ⟨_, middle, htable, hrest⟩ := Reading.bind_ok h
  obtain ⟨hthree, rfl⟩ := alterTable_ok htable
  obtain ⟨_, middle, hadd, hrest⟩ := Reading.bind_ok hrest
  obtain ⟨hhead, hword, rfl⟩ := Reading.expectWord_ok hadd
  have hfour := hthree.add (Plain.one hhead (kind_of_isWord hword))
  obtain ⟨o, middle, ho, hrest⟩ := Reading.bind_ok hrest
  obtain ⟨column, last, hcolumn, hrest⟩ := Reading.bind_ok hrest
  obtain ⟨u, hu, huname, -, rfl⟩ := Reading.identifier_ok hcolumn
  have hukind := kind_of_isName huname
  obtain ⟨span, last, hspan, hrest⟩ := Reading.bind_ok hrest
  obtain ⟨rfl, rfl⟩ := Reading.pure_ok hrest
  rw [Cursor.skip_skip] at ho
  -- the word `COLUMN` may be there
  rcases Reading.accept_ok ho with ⟨t, ht, htword, rfl, rfl⟩ | ⟨hnone, rfl, rfl⟩
  · have hlength : headLength c.ahead = 6 := by
      rw [Cursor.ahead_skip] at ht
      simp only [headLength, beginsWith_one, ht, Option.any_some, htword, if_true]
    refine ⟨c.skip 6, by rw [hlength], ?_, ?_⟩
    · rw [hlength]
      rw [Cursor.skip_skip] at hu
      exact (hfour.add (Plain.one ht (kind_of_isWord htword))).add (Plain.one hu hukind)
    · simp only [Cursor.skip_skip] at hspan
      exact columnType_ok hspan
  · have hlength : headLength c.ahead = 5 := by
      have : (c.ahead.drop 4).head?.any (·.isWord ["COLUMN"]) = false := by
        cases hhead : (c.ahead.drop 4).head? with
        | none => rfl
        | some t => exact hnone t hhead
      simp only [headLength, beginsWith_one, this, Bool.false_eq_true, if_false]
    refine ⟨c.skip 5, by rw [hlength], ?_, ?_⟩
    · rw [hlength]
      exact hfour.add (Plain.one hu hukind)
    · simp only [Cursor.skip_skip] at hspan
      exact columnType_ok hspan

/-- The edits of the statement make the text of its parts. -/
theorem restateAddColumn_ok {types : Fields Text} {tokens : List Token} {out : Text}
    (htokens : tokenize sql = .ok tokens)
    (h : (restateAddColumn types sql (significant tokens)).outcome = .ok out) :
    ∃ word, mapType types (typeName ((body tokens).drop (headLength (body tokens)))) = .ok word ∧
      out = written (parts word tokens) := by
  have hstands := Stands.ofTokens htokens
  have hahead : (Cursor.ofTokens (significant tokens)).ahead = body tokens := rfl
  have hreached : (Cursor.ofTokens (significant tokens)).reached = 0 := rfl
  unfold restateAddColumn at h
  split at h
  · simp at h
  · next head c hhead =>
      obtain ⟨type, htype, hplain, hle, hskip, hfirst, hlast, hmap⟩ := addedHead_ok hhead
      rw [hahead] at htype hplain
      have htypeAhead : type.ahead = (body tokens).drop (headLength (body tokens)) := by
        rw [htype, Cursor.ahead_skip, hahead]
      refine ⟨head.type.target, htypeAhead ▸ hmap, ?_⟩
      cases hcollect : Reading.collect Reading.addedPart c with
      | mk collected outcome =>
      obtain ⟨result, last⟩ := outcome
      rw [hcollect] at h
      cases result with
      | error e => simp [Except.map] at h
      | ok u =>
      obtain rfl : Edit.applyAll (addedEdits head.type collected) sql = out := by
        simpa [Except.map] using h
      -- the tokens before the type, the type's first token, its others, and those behind it
      obtain ⟨rest₁, hstands₁, hhead⟩ := hstands.skip_keep hplain.1 hplain.2
      rw [← htype] at hstands₁ hhead
      obtain ⟨ts, hcons⟩ := List.head?_eq_some_iff.1 hfirst
      obtain ⟨gap, rest₂, rfl, hpass⟩ := hstands₁.uncons hcons
      have hpos := typeLength_pos type.ahead
      obtain ⟨rest₃, hstands₃, hreach, htail⟩ := hpass.stands.skip_drop
        (n := typeLength type.ahead - 1) (by
          rw [Cursor.ahead_skip, List.length_drop]
          omega)
      rw [Cursor.skip_skip, Nat.add_sub_of_le hpos, ← hskip] at hstands₃ hreach
      have hedits := applyAll_tail hstands₃ hcollect
      have hbehind : c.ahead = type.ahead.drop (typeLength type.ahead) := by
        rw [hskip, Cursor.ahead_skip]
      have hle : head.type.first.start ≤ c.reached := by
        have := hpass.start_le
        rw [hpass.reached] at hreach
        omega
      have hstart := hhead (.type head.type.target ::
        (List.replicate (typeLength type.ahead - 1) .drop ++ tailMarks c.ahead))
      rw [weave_gap hpass.isGap, weave_type hpass.isToken, htail, hreached, List.take_zero,
        List.nil_append] at hstart
      rw [parts, marks, ← htypeAhead, ← hbehind, List.append_assoc, List.cons_append, hstart]
      rw [addedEdits, Edit.applyAll, List.foldr_cons, ← Edit.applyAll, hedits, hlast,
        apply_take hle hstands₃.reached_le, hpass.take_start]
      simp [written_gap, Part.text]

end AddedColumn

end Restate

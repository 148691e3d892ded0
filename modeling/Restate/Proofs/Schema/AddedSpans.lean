import Restate.Proofs.Schema.AddedColumn

/-!
# The stretches an added column is edited in

The edits of a statement that adds a column are made from the last to the first, each in a text that
the later ones have changed already. They take stretches of the statement that lie apart and behind
the column's name, so no edit meets what another has written, and the text comes out as if all had
been made in one pass from left to right. Main statement: `AddedColumn.restateAddColumn_apart`.
-/

namespace Restate

namespace Edit

/-- The text from an offset on, copied but for the stretches that the edits replace. -/
def splice (s : Text) (start : Nat) : List Edit → Text
  | [] => s.drop start
  | edit :: edits => s.extract start edit.start ++ edit.replacement ++ splice s edit.stop edits

/-- The edits take stretches between two offsets, one behind another, and none of them is empty. -/
def Apart : Nat → List Edit → Nat → Prop
  | start, [], stop => start ≤ stop
  | start, edit :: edits, stop =>
    start ≤ edit.start ∧ edit.start < edit.stop ∧ Apart edit.stop edits stop

namespace Apart

variable {start start' stop : Nat} {edits : List Edit}

theorem le (h : Apart start edits stop) : start ≤ stop := by
  induction edits generalizing start with
  | nil => exact h
  | cons edit edits ih =>
      obtain ⟨hstart, hstop, hrest⟩ := h
      have := ih hrest
      omega

theorem mono (h : Apart start edits stop) (hle : start' ≤ start) : Apart start' edits stop := by
  cases edits with
  | nil => exact Nat.le_trans hle h
  | cons edit edits => exact ⟨Nat.le_trans hle h.1, h.2⟩

/-- Every edit lies between the two offsets. -/
theorem within (h : Apart start edits stop) :
    ∀ e ∈ edits, start ≤ e.start ∧ e.start < e.stop ∧ e.stop ≤ stop := by
  induction edits generalizing start with
  | nil => simp
  | cons edit edits ih =>
      obtain ⟨hstart, hstop, hrest⟩ := h
      refine List.forall_mem_cons.2 ⟨⟨hstart, hstop, hrest.le⟩, ?_⟩
      intro e he
      obtain ⟨hbefore, hinside, hbehind⟩ := ih hrest e he
      exact ⟨by omega, hinside, hbehind⟩

/-- No edit begins before an earlier one ends. -/
theorem pairwise (h : Apart start edits stop) : edits.Pairwise fun e f => e.stop ≤ f.start := by
  induction edits generalizing start with
  | nil => exact .nil
  | cons edit edits ih =>
      obtain ⟨-, -, hrest⟩ := h
      exact List.pairwise_cons.2 ⟨fun e he => (hrest.within e he).1, ih hrest⟩

/-- Edits that lie apart can be made in one pass. -/
theorem applyAll_eq {s : Text} (h : Apart start edits s.length) :
    applyAll edits s = s.take start ++ splice s start edits := by
  induction edits generalizing start with
  | nil => exact (List.take_append_drop start s).symm
  | cons edit edits ih =>
      obtain ⟨hstart, hstop, hrest⟩ := h
      have hcopied : s.take start ++ s.extract start edit.start = s.take edit.start := by
        rw [List.extract_eq_take_drop, ← List.take_add, Nat.add_sub_of_le hstart]
      rw [applyAll, List.foldr_cons, ← applyAll, ih hrest,
        AddedColumn.apply_take (Nat.le_of_lt hstop) hrest.le, splice, ← List.append_assoc,
        ← List.append_assoc, hcopied]

end Apart

end Edit

open Edit (Apart)

namespace AddedColumn

variable {sql : Text} {c c' : Cursor} {rest : List Token}

/-- The edits that a statement takes, from its significant tokens, if it can be read. -/
def edits? (types : Fields Text) (tokens : List Token) : Option (List Edit) :=
  match Reading.addedHead types (Cursor.ofTokens tokens) with
  | (.error _, _) => none
  | (.ok head, c) =>
    match Reading.collect Reading.addedPart c with
    | (parts, .ok (), _) => some (addedEdits head.type parts)
    | (_, .error _, _) => none

/-- A statement that adds a column is restated just if it can be read, and then by its edits. -/
theorem restateAddColumn_ok_iff {types : Fields Text} {tokens : List Token} {out : Text} :
    (restateAddColumn types sql tokens).outcome = .ok out ↔
      ∃ edits, edits? types tokens = some edits ∧ out = Edit.applyAll edits sql := by
  unfold restateAddColumn edits?
  cases Reading.addedHead types (Cursor.ofTokens tokens) with
  | mk outcome c =>
      cases outcome with
      | error e => simp
      | ok head =>
          dsimp only
          cases Reading.collect Reading.addedPart c with
          | mk parts outcome =>
              obtain ⟨result, last⟩ := outcome
              cases result with
              | error e => simp [Except.map]
              | ok u => simp [Except.map, eq_comm]

namespace Stands

/-- A token that is passed is not empty. -/
theorem start_lt {gap rest' : List Token} {t : Token} (h : Stands sql c rest)
    (hrest : rest = gap ++ t :: rest') : t.start < t.stop := by
  obtain ⟨middle, -, hne, hstart, hstop, -⟩ := Tiles.append_iff.1 (hrest ▸ h.tiles)
  have := List.length_pos_iff.2 hne
  omega

/-- Tokens that are passed take the cursor on. -/
theorem reached_lt {n : Nat} (h : Stands sql c rest) (hpos : 0 < n) (hn : n ≤ c.ahead.length) :
    c.reached < (c.skip n).reached := by
  obtain ⟨t, ts, hahead⟩ := List.exists_cons_of_length_pos (Nat.lt_of_lt_of_le hpos hn)
  obtain ⟨gap, next, hrest, hpass⟩ := h.uncons hahead
  have hlt := h.start_lt hrest
  obtain ⟨-, -, hle, -⟩ := hpass.stands.skip_drop (n := n - 1) (by
    rw [Cursor.ahead_skip, List.length_drop]
    omega)
  rw [Cursor.skip_skip, Nat.add_sub_of_le hpos, hpass.reached] at hle
  have := hpass.reached_le
  omega

end Stands

/-- The edits behind the type lie apart in what follows it. -/
theorem apart_tail {parts : List AddedPart} (h : Stands sql c rest)
    (hcollect : Reading.collect Reading.addedPart c = (parts, .ok (), c')) :
    Apart c.reached (parts.filterMap AddedPart.edit?) sql.length := by
  -- a clause is several tokens, so the induction is on how many stand ahead
  induction hlength : c.ahead.length using Nat.strong_induction_on generalizing c rest parts with
  | _ length ih =>
  cases hahead : c.ahead with
  | nil =>
      have hend : c.atEnd = true := by simp [Cursor.atEnd, hahead]
      rw [Reading.collect, hend] at hcollect
      obtain ⟨rfl, -⟩ := Prod.mk.inj hcollect
      exact h.reached_le
  | cons t ts =>
      obtain ⟨part, middle, more, hpart, rfl, hmore⟩ := Reading.collect_cons_ok hahead hcollect
      rcases addedPart_ok hpart with ⟨hpos, hle, rfl, hedit⟩ | ⟨-, rfl, u, hu, hedit⟩
      · -- a clause is cut out from where the token before it stops
        obtain ⟨rest', hrest', -, -⟩ := h.skip_drop hle
        have hlt : (c.skip (clauseLength c.ahead)).ahead.length < length := by
          rw [Cursor.ahead_skip, List.length_drop]
          omega
        have hmore := ih _ hlt hrest' (hmore (hlength ▸ hlt)) rfl
        rw [List.filterMap_cons, hedit]
        exact ⟨Nat.le_refl _, h.reached_lt hpos hle, hmore⟩
      · -- a literal is quoted anew where it stands
        obtain rfl : t = u := by simpa [hahead] using hu
        obtain ⟨gap, rest', hrest, hpass⟩ := h.uncons hahead
        have hlt : (c.skip 1).ahead.length < length := by
          rw [Cursor.ahead_skip, List.length_drop, ← hlength, hahead, List.length_cons]
          omega
        have hmore := ih _ hlt hpass.stands (hmore (hlength ▸ hlt)) rfl
        rw [hpass.reached] at hmore
        have hstart := h.start_lt hrest
        rw [List.filterMap_cons, hedit]
        cases hquoted : requoting? t with
        | none => exact hmore.mono (Nat.le_trans hpass.reached_le (Nat.le_of_lt hstart))
        | some edit =>
            obtain rfl := requoting_some hquoted
            exact ⟨hpass.reached_le, hstart, hmore⟩

/-- A cursor behind some tokens of a statement has reached the end of the last of them. -/
theorem reached_skip_ofTokens {tokens : List Token} {n : Nat} (hpos : 0 < n)
    (hn : n ≤ (Cursor.withoutSemicolon tokens).length) :
    ∃ t, (Cursor.withoutSemicolon tokens)[n - 1]? = some t ∧
      ((Cursor.ofTokens tokens).skip n).reached = t.stop := by
  have hlt : n - 1 < (Cursor.withoutSemicolon tokens).length := by omega
  refine ⟨(Cursor.withoutSemicolon tokens)[n - 1], List.getElem?_eq_getElem hlt, ?_⟩
  have hlast : ((Cursor.withoutSemicolon tokens).take n).getLast? =
      some (Cursor.withoutSemicolon tokens)[n - 1] := by
    rw [List.getLast?_take, if_neg (Nat.ne_of_gt hpos), List.getElem?_eq_getElem hlt]
    rfl
  simp only [Cursor.reached, Cursor.skip, Cursor.ofTokens, List.append_nil, List.head?_reverse,
    hlast, Option.map_some, Option.getD_some]

theorem headLength_pos (ts : List Token) : 0 < headLength ts := by
  unfold headLength
  split
  · omega
  · omega

/-- The edits of a statement lie apart behind the name of the column. -/
theorem apart_of_edits {types : Fields Text} {tokens : List Token} {edits : List Edit}
    (htokens : tokenize sql = .ok tokens) (h : edits? types (significant tokens) = some edits) :
    ∃ column, (body tokens)[headLength (body tokens) - 1]? = some column ∧
      Apart column.stop edits sql.length := by
  unfold edits? at h
  split at h
  · simp at h
  · next head c hhead =>
      split at h
      · next parts last hcollect =>
          obtain rfl := Option.some.inj h
          obtain ⟨type, htype, hplain, hle, rfl, hfirst, hlast, -⟩ := addedHead_ok hhead
          obtain ⟨rest, hstands, -⟩ := (Stands.ofTokens htokens).skip_keep hplain.1 hplain.2
          rw [← htype] at hstands
          obtain ⟨column, hcolumn, hstop⟩ :=
            reached_skip_ofTokens (headLength_pos (body tokens)) hplain.1
          refine ⟨column, hcolumn, ?_⟩
          -- the type begins behind the name, and the other edits behind the type
          obtain ⟨ts, hahead⟩ := List.head?_eq_some_iff.1 hfirst
          obtain ⟨gap, rest', hrest, hpass⟩ := hstands.uncons hahead
          have hpos := typeLength_pos type.ahead
          obtain ⟨rest'', hbehind, hreach, -⟩ := hpass.stands.skip_drop
            (n := typeLength type.ahead - 1) (by
              rw [Cursor.ahead_skip, List.length_drop]
              omega)
          rw [Cursor.skip_skip, Nat.add_sub_of_le hpos] at hbehind hreach
          have htail := apart_tail hbehind hcollect
          rw [← hlast] at htail hreach
          rw [hpass.reached] at hreach
          have htypeEnd : head.type.first.start < head.type.last.stop :=
            Nat.lt_of_lt_of_le (hstands.start_lt hrest) hreach
          have hname := hpass.reached_le
          rw [htype] at hname
          exact ⟨hstop ▸ hname, htypeEnd, htail⟩
      · simp at h

/-- The edits of a statement that adds a column take stretches of it that lie apart and behind the
name of the column. Made from the last to the first, they replace these stretches and nothing else,
and what comes out is the text of the statement's parts: the type's word in place of the type, no
clause that is left out nor the gap before it, each literal quoted anew, and all else as it was. -/
theorem restateAddColumn_apart {types : Fields Text} {tokens : List Token} {out : Text}
    (htokens : tokenize sql = .ok tokens)
    (hok : (restateAddColumn types sql (significant tokens)).outcome = .ok out) :
    ∃ edits column word, edits? types (significant tokens) = some edits ∧
      (body tokens)[headLength (body tokens) - 1]? = some column ∧
      (edits.Pairwise fun e f => e.stop ≤ f.start) ∧
      (∀ e ∈ edits, column.stop ≤ e.start ∧ e.start < e.stop ∧ e.stop ≤ sql.length) ∧
      mapType types (typeName ((body tokens).drop (headLength (body tokens)))) = .ok word ∧
      out = Edit.applyAll edits sql ∧ out = Edit.splice sql 0 edits ∧
      out = written (parts word tokens) := by
  obtain ⟨edits, hedits, hout⟩ := restateAddColumn_ok_iff.1 hok
  obtain ⟨column, hcolumn, hapart⟩ := apart_of_edits htokens hedits
  obtain ⟨word, hword, hwritten⟩ := restateAddColumn_ok htokens hok
  refine ⟨edits, column, word, hedits, hcolumn, hapart.pairwise, hapart.within, hword, hout, ?_,
    hwritten⟩
  rw [hout, (hapart.mono (Nat.zero_le _)).applyAll_eq]
  rfl

/-- Type, literal and clause touch one another here, and each is edited by itself. -/
theorem restateAddColumn_apart_touching :
    ∃ tokens edits, tokenize "ALTER TABLE t ADD c int(1)DEFAULT\"x\"AFTER d;" = .ok tokens ∧
      (restateAddColumn [("int", "integer")] "ALTER TABLE t ADD c int(1)DEFAULT\"x\"AFTER d;"
        (significant tokens)).outcome = .ok "ALTER TABLE t ADD c integerDEFAULT'x';" ∧
      edits? [("int", "integer")] (significant tokens) = some edits ∧
      (edits.Pairwise fun e f => e.stop ≤ f.start) ∧
      "ALTER TABLE t ADD c integerDEFAULT'x';".toList =
        Edit.splice "ALTER TABLE t ADD c int(1)DEFAULT\"x\"AFTER d;" 0 edits := by
  obtain ⟨tokens, htokens, htest⟩ := exists_of_passes (show passes
      (fun tokens => passes (· == "ALTER TABLE t ADD c integerDEFAULT'x';".toList)
        (restateAddColumn [("int", "integer")] "ALTER TABLE t ADD c int(1)DEFAULT\"x\"AFTER d;"
          (significant tokens)).outcome)
      (tokenize "ALTER TABLE t ADD c int(1)DEFAULT\"x\"AFTER d;") = true by decide +kernel)
  obtain ⟨out, hok, hout⟩ := exists_of_passes htest
  rw [eq_of_beq hout] at hok
  obtain ⟨edits, column, word, hedits, -, hpairwise, -, -, -, hsplice, -⟩ :=
    restateAddColumn_apart htokens hok
  exact ⟨tokens, edits, htokens, hok, hedits, hpairwise, hsplice⟩

end AddedColumn

end Restate

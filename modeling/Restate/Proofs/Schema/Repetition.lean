import Restate.Proofs.Schema.AddedEdits
import Restate.Proofs.Schema.Clauses

/-!
# Repetition

Options of an index, clauses of a column and parts of an added column are read one after another up
to the end. A repetition would stop at a step that passes no token, but each of these steps passes
one whenever it succeeds. Main statement: such a repetition goes on until no token lies ahead or a
step fails (`Reading.Advances.collect_eq`).
-/

namespace Restate

namespace Reading

variable {α β : Type} {c c' : Cursor}

/-- Wherever the reading succeeds, no more tokens lie ahead than before. -/
def Proceeds (x : Reading α) : Prop :=
  ∀ (c c' : Cursor) (a : α), x c = (.ok a, c') → c'.ahead.length ≤ c.ahead.length

/-- Wherever the reading succeeds, it has passed a token. -/
def Advances (x : Reading α) : Prop :=
  ∀ (c c' : Cursor) (a : α), x c = (.ok a, c') → c'.ahead.length < c.ahead.length

/-- The reading tells whether it has passed a token. -/
def Tells (test : Reading Bool) : Prop :=
  ∀ (c c' : Cursor) (b : Bool), test c = (.ok b, c') →
    if b then c'.ahead.length < c.ahead.length else c' = c

section Steps

variable {x y : Reading α}

theorem proceeds_of_reads (h : ∀ {c c' : Cursor} {a : α}, x c = (.ok a, c') →
    ∃ piece, c.ahead = piece ++ c'.ahead) : x.Proceeds := by
  intro c c' a hread
  obtain ⟨piece, hpiece⟩ := h hread
  rw [hpiece, List.length_append]
  omega

theorem Advances.proceeds (h : x.Advances) : x.Proceeds :=
  fun c c' a hread => (h c c' a hread).le

theorem Proceeds.bind {f : α → Reading β} (hx : x.Proceeds) (hf : ∀ a, (f a).Proceeds) :
    (x >>= f).Proceeds := by
  intro c c' b h
  obtain ⟨a, middle, ha, hb⟩ := bind_ok h
  exact (hf a _ _ _ hb).trans (hx _ _ _ ha)

/-- A choice by the next token advances if it goes on behind the token or else advances. -/
theorem Advances.accepting {p : Token → Bool} (hx : x.Proceeds) (hy : y.Advances) :
    (do if (← accept p).isSome then x else y : Reading α).Advances := by
  intro c c' a h
  rcases accept_branch h with ⟨t, last, -, hahead, hrest⟩ | hrest
  · rw [hahead, List.length_cons, Nat.lt_succ_iff]
    exact hx _ _ _ hrest
  · exact hy _ _ _ hrest

/-- So does a choice by words, behind them or else where it stands. -/
theorem Advances.choosing {test : Reading Bool} (htest : test.Tells) (hx : x.Proceeds)
    (hy : y.Advances) : (do if ← test then x else y : Reading α).Advances := by
  intro c c' a h
  obtain ⟨b, middle, hb, hrest⟩ := bind_ok h
  have htold := htest _ _ _ hb
  cases b with
  | true => exact (hx _ _ _ hrest).trans_lt htold
  | false =>
      obtain rfl : middle = c := htold
      exact hy _ _ _ hrest

theorem proceeds_pure (a : α) : (pure a : Reading α).Proceeds := by
  intro c c' b h
  obtain ⟨-, rfl⟩ := pure_ok h
  exact le_rfl

theorem advances_fail_found (cause : Text → Unsupported) :
    (do fail (cause (found (← here))) : Reading α).Advances := by
  intro c c' a h
  obtain ⟨_, _, -, hfail⟩ := bind_ok h
  exact (fail_not_ok hfail).elim

theorem advances_advance : advance.Advances := by
  intro c c' t h
  rw [advance_reads h, List.length_cons]
  exact Nat.lt_succ_self _

theorem proceeds_accept (p : Token → Bool) : (accept p).Proceeds := by
  refine proceeds_of_reads fun hread => ?_
  obtain ⟨piece, hpiece, -⟩ := accept_isSome_reads hread
  exact ⟨piece, hpiece⟩

theorem proceeds_defaultValue : defaultValue.Proceeds := by
  refine proceeds_of_reads fun hread => ?_
  obtain ⟨piece, -, hpiece⟩ := defaultValue_reads hread
  exact ⟨piece, hpiece⟩

theorem proceeds_skipSetting : skipSetting.Proceeds :=
  .bind (proceeds_accept _) fun _ => .bind advances_advance.proceeds fun _ => proceeds_pure _

theorem proceeds_skipGroup : skipGroup.Proceeds := by
  refine proceeds_of_reads fun hread => ?_
  obtain ⟨piece, -, hpiece⟩ := skipGroup_reads hread
  exact ⟨piece, hpiece⟩

theorem proceeds_skipUpdateRule : skipUpdateRule.Proceeds :=
  .bind advances_advance.proceeds fun _ => proceeds_skipGroup

theorem tells_acceptWords (word : Text) (words : List Text) :
    (acceptWords (word :: words)).Tells := by
  intro c c' b h
  obtain ⟨rfl, rfl⟩ := acceptWords_ok h
  split
  · next hbegins =>
      have hlength := length_le_of_beginsWith hbegins
      rw [List.length_cons] at hlength
      rw [Cursor.ahead_skip, List.length_drop, List.length_cons]
      omega
  · exact Cursor.skip_zero c

theorem tells_acceptCharacterSet : acceptCharacterSet.Tells := by
  intro c c' b h
  rcases acceptCharacterSet_ok h with ⟨rfl, hbegins, rfl⟩ | ⟨rfl, -, hword, rfl⟩ | ⟨rfl, -, -, rfl⟩
  · have hlength := length_le_of_beginsWith hbegins
    simp only [List.length_cons, List.length_nil] at hlength
    rw [if_pos rfl, Cursor.ahead_skip, List.length_drop]
    omega
  · obtain ⟨t, hhead, -⟩ := (Option.any_eq_true _ _).1 hword
    obtain ⟨rest, hahead⟩ := List.head?_eq_some_iff.1 hhead
    rw [if_pos rfl, Cursor.ahead_skip, hahead, List.drop_succ_cons, List.drop_zero,
      List.length_cons]
    exact Nat.lt_succ_self _
  · exact Cursor.skip_zero c

end Steps

theorem advances_skipIndexOption : skipIndexOption.Advances := by
  intro c c' u h
  obtain ⟨option, hoption, hahead⟩ := skipIndexOption_reads h
  have hne : 0 < option.length := by
    cases hoption with
    | visible => exact Nat.one_pos
    | setting =>
        rw [List.length_append, List.length_singleton]
        exact Nat.succ_pos _
  rw [hahead, List.length_append]
  omega

/-- Each clause of a column begins with a word. -/
theorem advances_columnClause (column : Text) : (columnClause column).Advances := by
  have hword : ∀ (words : List Text) (clause : ColumnClause), (do
      let _ ← acceptWord words
      return clause : Reading ColumnClause).Proceeds :=
    fun words clause => .bind (proceeds_accept _) fun _ => proceeds_pure _
  exact .choosing (tells_acceptWords _ _) (proceeds_pure _) <|
    .accepting (proceeds_pure _) <|
    .accepting (.bind proceeds_defaultValue fun _ => proceeds_pure _) <|
    .accepting (proceeds_pure _) <|
    .accepting (hword _ _) <|
    .accepting (proceeds_pure _) <|
    .accepting (hword _ _) <|
    .accepting (.bind advances_advance.proceeds fun _ => proceeds_pure _) <|
    .choosing tells_acceptCharacterSet (.bind proceeds_skipSetting fun _ => proceeds_pure _) <|
    .choosing (tells_acceptWords _ _) (.bind proceeds_skipUpdateRule fun _ => proceeds_pure _) <|
    advances_fail_found fun found => .columnAttribute found column

/-- Each part of an added column is a clause that is left out, or one token. -/
theorem advances_addedPart : addedPart.Advances := by
  intro c c' part h
  rcases AddedColumn.addedPart_ok h with hdrops | ⟨-, rfl, t, hhead, -⟩
  · have hpos := hdrops.pos
    have hle := hdrops.le
    rw [hdrops.skip, Cursor.ahead_skip, List.length_drop]
    omega
  · obtain ⟨rest, hahead⟩ := List.head?_eq_some_iff.1 hhead
    rw [Cursor.ahead_skip, hahead, List.drop_succ_cons, List.drop_zero, List.length_cons]
    exact Nat.lt_succ_self _

section Repeated

variable {step : Reading α}

/-- A step that advances is repeated until no token lies ahead or the step fails. -/
theorem Advances.collect_eq (h : step.Advances) (c : Cursor) : collect step c =
    if c.atEnd then ([], .ok (), c)
    else match step c with
      | (.error e, c') => ([], .error e, c')
      | (.ok a, c') => (a :: (collect step c').1, (collect step c').2) := by
  rw [collect]
  by_cases hend : c.atEnd = true
  · rw [if_pos hend, if_pos hend]
  · rw [if_neg hend, if_neg hend]
    rcases hstep : step c with ⟨e | a, c'⟩
    · rfl
    · exact if_pos (h _ _ _ hstep)

/-- So a repetition that does not fail ends behind the last token. -/
theorem Advances.atEnd_of_gather (h : step.Advances) {collected : List α}
    (hgather : gather step c = (.ok collected, c')) : c'.atEnd = true := by
  have hcollect : ∀ c, (collect step c).2.1 = .ok () → (collect step c).2.2.atEnd = true := by
    intro c
    fun_induction collect step c with
    | case1 c hend => exact fun _ => hend
    | case2 c hend e c' hstep => simp
    | case3 c hend a c' hstep hlt more result hmore ih =>
        rw [hmore] at ih
        exact ih
    | case4 c hend a c' hstep hnot => exact (hnot (h _ _ _ hstep)).elim
  unfold gather at hgather
  split at hgather
  · next heq =>
      cases hgather
      have hend := hcollect c
      rw [heq] at hend
      exact hend rfl
  · cases hgather

end Repeated

/-- Options of an index are skipped up to the end, or one of them is refused. -/
theorem atEnd_of_skipIndexOptions {u : Unit} (h : skipIndexOptions c = (.ok u, c')) :
    c'.atEnd = true := by
  obtain ⟨_, middle, hgather, hrest⟩ := bind_ok h
  obtain ⟨-, rfl⟩ := pure_ok hrest
  exact advances_skipIndexOption.atEnd_of_gather hgather

end Reading

end Restate

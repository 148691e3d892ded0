import Restate.Proofs.Rows.Unbound
import Restate.Proofs.Schema.Definitions
import Restate.Proofs.Schema.Refusals

/-!
# Defaults without a value

A default may be a number in bits, and bits that spell none are not refused: the column fails with
an error that names no construct. Main statement: reading a column fails in this way just if it
comes to such a default (`Reading.column_faults`, `Reading.column_refusing`).
-/

namespace Restate

/-- `DEFAULT` and a number in bits that spell none come next. -/
def StopsAtBits (tokens : List Token) : Prop :=
  ∃ word marker literal rest, tokens = word :: marker :: literal :: rest ∧
    word.isWord ["DEFAULT"] = true ∧ BitsWithoutValue marker literal

/-- The tokens are read as a column, up to a default in bits that spell no number. -/
def ColumnStops (types : Fields Text) (tokens : List Token) : Prop :=
  ∃ name span behindName behindType last,
    Reading.identifier ⟨[], tokens⟩ = (.ok name, behindName) ∧
    Reading.columnType types behindName = (.ok span, behindType) ∧
    Reading.Reaches (Reading.columnClause name) behindType last ∧ StopsAtBits last.ahead

theorem Token.isWord_of_subset {t : Token} {words others : List Text}
    (h : t.isWord words = true) (hsubset : words ⊆ others) : t.isWord others = true :=
  isWord_iff.2 ⟨(isWord_iff.1 h).1, hsubset (isWord_iff.1 h).2⟩

namespace Introducer

theorem before_eq_bits_iff {t u : Token} :
    before? t u = some .bits ↔
      u.kind = .string ∧ t.kind.isBare = true ∧ t.touches u = true ∧ t.upper = ['B'] := by
  unfold before? ofUpper?
  constructor
  · intro h
    split at h
    · next hliteral =>
        split at h
        · simp at h
        · split at h
          · next hb => exact ⟨hliteral.1, hliteral.2.1, hliteral.2.2, hb⟩
          · split at h
            · simp at h
            · simp at h
    · simp at h
  · rintro ⟨hstring, hbare, htouches, hb⟩
    rw [if_pos ⟨hstring, hbare, htouches⟩, hb]
    rfl

end Introducer

namespace Reading

variable {α β : Type} {c c' : Cursor} {t : Token}

theorem bind_of_ok {x : Reading α} {a : α} (h : x c = (.ok a, c')) (f : α → Reading β) :
    (x >>= f) c = f a c' := by
  simp only [bind, h]

theorem advance_of_ahead {rest : List Token} (h : c.ahead = t :: rest) :
    advance c = (.ok t, c.skip 1) := by
  unfold advance
  rw [h]

theorem accept_of_ahead {p : Token → Bool} {rest : List Token} (h : c.ahead = t :: rest)
    (ht : p t = true) : accept p c = (.ok (some t), c.skip 1) := by
  unfold accept
  rw [h]
  exact if_pos ht

theorem accept_of_other {p : Token → Bool} (h : ∀ t ∈ c.ahead.head?, p t = false) :
    accept p c = (.ok none, c) := by
  unfold accept
  split
  · next t rest hahead => exact if_neg (ne_true_of_eq_false (h t (by simp [hahead])))
  · rfl

/-- A marked literal is taken whatever it holds, and bits without a value are a fault. -/
theorem introducedDefault_of_literal {literal : Token} {rest : List Token}
    (hahead : c.ahead = literal :: rest) (hword : t.isWord ["B", "X"] = true)
    (hstring : literal.kind = .string) (htouches : t.touches literal = true) :
    introducedDefault t c =
      (if t.upper = ['B'] then (bitNumeral literal.value).mapError .numeral
        else .ok ("X'" ++ literal.value ++ "'"), c.skip 1) := by
  have hnext : c.next? = some literal := by rw [Cursor.next?, hahead, List.head?_cons]
  unfold introducedDefault
  rw [bind_of_ok (show here c = (.ok c, c) from rfl), hnext]
  dsimp only
  rw [if_pos (by rw [hword, hstring, htouches]; rfl), bind_of_ok (advance_of_ahead hahead)]
  split
  · cases bitNumeral literal.value with
    | ok text => rfl
    | error fault => rfl
  · rfl

theorem introducedDefault_faults {literal : Token} {rest : List Token}
    (hahead : c.ahead = literal :: rest) (hbits : BitsWithoutValue t literal) :
    ∃ fault c', introducedDefault t c = (.error (.numeral fault), c') := by
  obtain ⟨hbefore, fault, hfault⟩ := bitsWithoutValue_iff.1 hbits
  obtain ⟨hstring, hbare, htouches, hb⟩ := Introducer.before_eq_bits_iff.1 hbefore
  have hword : t.isWord ["B", "X"] = true := Token.isWord_iff.2 ⟨hbare, by rw [hb]; decide⟩
  refine ⟨fault, c.skip 1, ?_⟩
  rw [introducedDefault_of_literal hahead hword hstring htouches, if_pos hb, hfault]
  rfl

theorem introducedDefault_refusing
    (h : ∀ literal ∈ c.ahead.head?, ¬ BitsWithoutValue t literal) :
    Refusing (introducedDefault t c).1 := by
  refine refusing_bind (refuses_here c) fun d c' hd => ?_
  obtain ⟨rfl, rfl⟩ := here_ok hd
  cases hnext : c.next? with
  | none => exact refuses_fail _ _
  | some literal =>
      dsimp only
      split
      · next hliteral =>
          refine refusing_bind (refuses_advance c) fun _ c₁ _ => ?_
          split
          · next hb =>
              cases hvalue : bitNumeral literal.value with
              | ok text => exact refuses_pure _ _
              | error fault =>
                  simp only [Bool.and_eq_true, beq_iff_eq] at hliteral
                  obtain ⟨⟨hword, hstring⟩, htouches⟩ := hliteral
                  refine (h literal hnext (bitsWithoutValue_iff.2 ⟨?_, fault, hvalue⟩)).elim
                  exact Introducer.before_eq_bits_iff.2
                    ⟨hstring, (Token.isWord_iff.1 hword).1, htouches, hb⟩
          · exact refuses_pure _ _
      · exact refuses_fail _ _

/-- A word that may mark a literal stands for no value of its own. -/
theorem defaultValue_of_introducer {rest : List Token} (hahead : c.ahead = t :: rest)
    (hword : t.isWord ["B", "X"] = true) : defaultValue c = introducedDefault t (c.skip 1) := by
  obtain ⟨hbare, hupper⟩ := Token.isWord_iff.1 hword
  have hkind : ∀ kind : TokenKind, kind.isBare = false → t.kind ≠ kind := by
    rintro kind hkind rfl
    simp [hkind] at hbare
  have hconstant : t.isWord ["NULL", "TRUE", "FALSE"] = false :=
    Token.isWord_of_disjoint hword (by decide)
  have htime : currentTime? t = none := by
    have hnone : ∀ word ∈ (["B", "X"] : List Text), currentTimes.get? word = none := by decide
    rw [currentTime?, if_pos hbare, hnone _ hupper]
  unfold defaultValue
  rw [bind_of_ok (show here c = (.ok c, c) from rfl), if_neg, bind_of_ok (advance_of_ahead hahead),
    if_neg (hkind _ rfl), if_neg (hkind _ rfl), if_neg,
    if_neg (ne_true_of_eq_false hconstant), htime]
  · simp [Token.isOperator, hkind .operator rfl]
  · simp [nextIs_eq, hahead, Token.isPunct, hkind .punctuation rfl]

theorem defaultValue_faults {marker literal : Token} {rest : List Token}
    (hahead : c.ahead = marker :: literal :: rest) (hbits : BitsWithoutValue marker literal) :
    ∃ fault c', defaultValue c = (.error (.numeral fault), c') := by
  obtain ⟨-, hbare, -, hb⟩ := Introducer.before_eq_bits_iff.1 hbits.1
  have hword : marker.isWord ["B", "X"] = true :=
    Token.isWord_iff.2 ⟨hbare, by rw [hb]; decide⟩
  have hbehind : (c.skip 1).ahead = literal :: rest := by rw [Cursor.ahead_skip, hahead]; rfl
  rw [defaultValue_of_introducer hahead hword]
  exact introducedDefault_faults hbehind hbits

theorem defaultValue_refusing
    (h : ∀ marker literal rest, c.ahead = marker :: literal :: rest →
      ¬ BitsWithoutValue marker literal) :
    Refusing (defaultValue c).1 := by
  refine refusing_bind (refuses_here c) fun d c' hd => ?_
  obtain ⟨rfl, rfl⟩ := here_ok hd
  split
  · exact Refuses.bind refuses_group (fun _ => refuses_pure _) c
  · refine refusing_bind (refuses_advance c) fun t c₁ ht => ?_
    have hahead := advance_reads ht
    split
    · exact refuses_pure _ _
    split
    · exact refuses_pure _ _
    split
    · exact Refuses.bind refuses_advance
        (fun _ => .ite (refuses_pure _) (refuses_fail _)) c₁
    split
    · exact refuses_pure _ _
    cases currentTime? t with
    | some name => exact Refuses.bind refuses_skipGroup (fun _ => refuses_pure _) c₁
    | none =>
        refine introducedDefault_refusing fun literal hliteral => ?_
        exact h t literal c₁.ahead.tail (by rw [hahead, List.cons_head?_tail hliteral])

theorem columnClause_faults (column : Text) (h : StopsAtBits c.ahead) :
    ∃ fault c', columnClause column c = (.error (.numeral fault), c') := by
  obtain ⟨word, marker, literal, rest, hahead, hword, hbits⟩ := h
  have hbehind : (c.skip 1).ahead = marker :: literal :: rest := by
    rw [Cursor.ahead_skip, hahead]
    rfl
  obtain ⟨fault, c', hfault⟩ := defaultValue_faults hbehind hbits
  have hother : ∀ {words : List Text}, (∀ w ∈ ["DEFAULT".toList], w ∉ words) →
      word.isWord words = false := fun hwords => Token.isWord_of_disjoint hword hwords
  refine ⟨fault, c', ?_⟩
  unfold columnClause
  have hnot : acceptWords ["NOT", "NULL"] c = (.ok false, c) := by
    unfold acceptWords
    rw [hahead, beginsWith, hother (by decide)]
    rfl
  have hnull : acceptWord ["NULL"] c = (.ok none, c) :=
    accept_of_other (by simpa [hahead] using hother (by decide))
  have hdefault : acceptWord ["DEFAULT"] c = (.ok (some word), c.skip 1) :=
    accept_of_ahead hahead hword
  rw [bind_of_ok hnot, if_neg (by simp), bind_of_ok hnull, if_neg (by simp), bind_of_ok hdefault]
  change (defaultValue >>= fun value => pure (ColumnClause.default value)) (c.skip 1) = _
  simp only [bind, hfault]

theorem columnClause_refusing {column : Text} (h : ¬ StopsAtBits c.ahead) :
    Refusing (columnClause column c).1 := by
  refine refusing_bind (refuses_acceptWords _ c) fun b c₁ hb => ?_
  obtain ⟨rfl, rfl⟩ := acceptWords_ok hb
  split
  · exact refuses_pure _ _
  rw [Cursor.skip_zero]
  refine refusing_bind (refuses_acceptWord _ c) fun o c₂ ho => ?_
  rcases accept_reads ho with ⟨_, rfl, -⟩ | ⟨rfl, rfl, -⟩
  · exact refuses_pure _ _
  refine refusing_bind (refuses_acceptWord _ c₂) fun o c₃ hword => ?_
  rcases accept_reads hword with ⟨word, rfl, hword, hahead⟩ | ⟨rfl, rfl, -⟩
  · refine refusing_bind (defaultValue_refusing ?_) fun _ c' _ => refuses_pure _ c'
    intro marker literal rest hrest hbits
    exact h ⟨word, marker, literal, rest, by rw [hahead, hrest], hword, hbits⟩
  · exact Refuses.bind (refuses_acceptWord _) (fun _ => .ite (refuses_pure _) <|
      .bind (refuses_acceptWord _) fun _ =>
      .ite (.bind (refuses_acceptWord _) fun _ => refuses_pure _) <|
      .bind (refuses_acceptWord _) fun _ => .ite (refuses_pure _) <|
      .bind (refuses_acceptWord _) fun _ =>
      .ite (.bind (refuses_acceptWord _) fun _ => refuses_pure _) <|
      .bind (refuses_acceptWord _) fun _ =>
      .ite (.bind refuses_advance fun _ => refuses_pure _) <|
      .bind refuses_acceptCharacterSet fun _ =>
      .ite (.bind refuses_skipSetting fun _ => refuses_pure _) <|
      .bind (refuses_acceptWords _) fun _ =>
      .ite (.bind refuses_skipUpdateRule fun _ => refuses_pure _) <|
      .bind refuses_here fun _ => refuses_fail _) c₃

section Repetition

variable {step : Reading α}

/-- A repetition fails where it comes to a step that does. -/
theorem gather_error {e : Error} {last : Cursor} (h : Reaches step c last) (hlast : last.ahead ≠ [])
    (he : step last = (.error e, c')) : gather step c = (.error e, c') := by
  have hcollect : (collect step c).2 = (.error e, c') := by
    induction h with
    | @here c =>
        rw [collect, if_neg (by simpa [Cursor.atEnd] using hlast), he]
    | @step c middle last a hstep hlt hreaches ih =>
        have hahead : c.ahead ≠ [] := by
          intro hnil
          simp [hnil] at hlt
        rw [collect, if_neg (by simpa [Cursor.atEnd] using hahead), hstep]
        simp only [hlt, if_true]
        exact ih hlast he
  unfold gather
  rw [show collect step c = ((collect step c).1, .error e, c') by rw [← hcollect]]

end Repetition

section Column

variable {types : Fields Text} {tokens : List Token} (sql : Text)

theorem column_faults (h : ColumnStops types tokens) :
    ∃ fault c', Reading.column types sql ⟨[], tokens⟩ = (.error (.numeral fault), c') := by
  obtain ⟨name, span, behindName, behindType, last, hname, hspan, hreaches, hbits⟩ := h
  have hlast : last.ahead ≠ [] := by
    obtain ⟨word, marker, literal, rest, hahead, -⟩ := hbits
    simp [hahead]
  obtain ⟨fault, c', hfault⟩ := columnClause_faults name hbits
  refine ⟨fault, c', ?_⟩
  unfold Reading.column
  rw [bind_of_ok hname, bind_of_ok hspan]
  simp only [bind, gather_error hreaches hlast hfault]

theorem column_refusing (h : ¬ ColumnStops types tokens) :
    Refusing (Reading.column types sql ⟨[], tokens⟩).1 := by
  refine refusing_bind (refuses_identifier _) fun name behindName hname => ?_
  refine refusing_bind (refuses_columnType types _) fun span behindType hspan => ?_
  refine refusing_bind (gather_refusing ?_) fun _ c' _ => refuses_pure _ c'
  intro last hlast
  exact columnClause_refusing fun hbits =>
    h ⟨name, span, behindName, behindType, last, hname, hspan, hlast, hbits⟩

end Column

end Reading

end Restate

import Mathlib.Data.List.Forall2
import Restate.Proofs.Parens
import Restate.Proofs.Restatement
import Restate.Proofs.Schema.Reading
import Restate.Schema.Table

/-!
# Clauses for keys

What the tokens of a key are: a name that may be missing, a kind of index, the columns in
parentheses, and options. Main statement: a key that is read has these parts, and nothing else
(`Reading.key_reads`). Each law says what stands between the cursor before and the cursor after.
-/

namespace Restate

/-- A parenthesis with what it encloses. -/
def IsGroup (inner group : List Token) : Prop :=
  ∃ opening closing, group = opening :: inner ++ [closing] ∧ opening.isPunct "(" = true ∧
    closing.isPunct ")" = true ∧ Balanced inner

/-- The kind of an index, which may be missing. -/
def IsIndexKind (kind : List Token) : Prop :=
  kind = [] ∨ ∃ word value, kind = [word, value] ∧ word.isWord ["USING"] = true

/-- The name of a key, which may be missing. -/
inductive IsKeyName : List Token → Text → Prop where
  | missing : IsKeyName [] []
  | given {t : Token} : t.isName → t.isWord ["USING"] = false → IsKeyName [t] t.value

/-- A column of a key, with a length that is left out and a direction. -/
inductive IsKeyPart : List Token → IndexColumn → Prop where
  | column {name : Token} {length direction : List Token} {shown : Text} : name.isName →
      (length = [] ∨ ∃ n, IsGroup [n] length ∧ n.kind = .number) →
      (direction = [] ∧ shown = [] ∨
        ∃ d, direction = [d] ∧ d.isWord ["ASC", "DESC"] = true ∧ shown = d.upper) →
      IsKeyPart (name :: length ++ direction) ⟨name.value, shown⟩

/-- One option of an index. -/
inductive IsIndexOption : List Token → Prop where
  | visible {word : Token} : word.isWord ["VISIBLE", "INVISIBLE"] = true → IsIndexOption [word]
  | setting {words sign : List Token} {value : Token} :
      (∃ word, words = [word] ∧ word.isWord Reading.indexOptions = true ∧
          word.isWord ["VISIBLE", "INVISIBLE"] = false ∧ word.isWord ["WITH"] = false) ∨
        (∃ word parser, words = [word, parser] ∧ word.isWord ["WITH"] = true ∧
          parser.isWord ["PARSER"] = true) →
      (sign = [] ∨ ∃ s, sign = [s] ∧ s.isOperator "=" = true) →
      IsIndexOption (words ++ sign ++ [value])

/-- Options of an index, one behind the other. -/
inductive IndexOptions : List Token → Prop where
  | nil : IndexOptions []
  | cons {option more : List Token} : IsIndexOption option → IndexOptions more →
      IndexOptions (option ++ more)

/-- The columns of a key in parentheses. -/
def IsKeyList (columns : List IndexColumn) (list : List Token) : Prop :=
  ∃ inner, IsGroup inner list ∧
    List.Forall₂ (fun part column => IsKeyPart (Cursor.withoutSemicolon part) column)
      (splitTopLevel "," inner) columns

/-- There is a part before the first comma, so a key has a column. -/
theorem IsKeyList.ne_nil {columns : List IndexColumn} {list : List Token}
    (h : IsKeyList columns list) : columns ≠ [] := by
  rintro rfl
  obtain ⟨inner, -, hparts⟩ := h
  exact splitAtDepth_ne_nil "," 0 inner (List.forall₂_nil_right_iff.1 hparts)

/-- A key behind the words that introduce it. Without a name, or with an empty one, it is named for
its first column. -/
inductive IsKey (table : Text) (unique : Bool) : List Token → Index → Prop where
  | key {named kind list options : List Token} {declared : Text} {first : IndexColumn}
      {columns : List IndexColumn} : IsKeyName named declared → IsIndexKind kind →
      IsKeyList (first :: columns) list → IndexOptions options →
      IsKey table unique (named ++ kind ++ list ++ options)
        ⟨if declared.isEmpty then first.name else declared, table, unique, first :: columns⟩

namespace Reading

variable {c c' : Cursor}

theorem ahead_of_head? {t : Token} (h : c.ahead.head? = some t) :
    c.ahead = t :: (c.skip 1).ahead := by
  obtain ⟨rest, hrest⟩ := List.head?_eq_some_iff.1 h
  simp [hrest]

theorem advance_reads {t : Token} (h : advance c = (.ok t, c')) : c.ahead = t :: c'.ahead := by
  obtain ⟨hhead, rfl⟩ := advance_ok h
  exact ahead_of_head? hhead

theorem accept_reads {p : Token → Bool} {o : Option Token} (h : accept p c = (.ok o, c')) :
    (∃ t, o = some t ∧ p t = true ∧ c.ahead = t :: c'.ahead) ∨
      o = none ∧ c' = c ∧ ∀ t, c.ahead.head? = some t → p t = false := by
  rcases accept_ok h with ⟨t, hhead, hp, rfl, rfl⟩ | ⟨hp, rfl, rfl⟩
  · exact .inl ⟨t, rfl, hp, ahead_of_head? hhead⟩
  · exact .inr ⟨rfl, rfl, hp⟩

theorem expectWord_reads {words : List Text} {t : Token} (h : expectWord words c = (.ok t, c')) :
    c.ahead = t :: c'.ahead ∧ t.isWord words = true := by
  obtain ⟨hhead, hword, rfl⟩ := expectWord_ok h
  exact ⟨ahead_of_head? hhead, hword⟩

theorem identifier_reads {name : Text} (h : identifier c = (.ok name, c')) :
    ∃ t, c.ahead = t :: c'.ahead ∧ t.isName ∧ name = t.value := by
  obtain ⟨t, hhead, hname, rfl, rfl⟩ := identifier_ok h
  exact ⟨t, ahead_of_head? hhead, hname, rfl⟩

theorem group_reads {group : List Token} (h : Reading.group c = (.ok group, c')) :
    ∃ inner, IsGroup inner group ∧ c.ahead = group ++ c'.ahead := by
  unfold Reading.group at h
  split at h
  · next opening rest hahead =>
      split at h
      · next hopen =>
          split at h
          · next n hclosing =>
              obtain ⟨inner, closing, more, rfl, hinner, hclose, rfl⟩ :=
                closingFrom_one_iff.1 hclosing
              have hgroup : c.ahead.take (inner.length + 2) = opening :: inner ++ [closing] := by
                simp [hahead, List.take_append, List.take_of_length_le]
              cases h
              rw [hgroup]
              refine ⟨inner, ⟨opening, closing, rfl, hopen, hclose, hinner⟩, ?_⟩
              rw [Cursor.ahead_skip, ← hgroup, List.take_append_drop]
          · simp at h
      · simp at h
  · simp at h

theorem parenthesized_reads {inner : List Token} (h : parenthesized c = (.ok inner, c')) :
    ∃ group, IsGroup inner group ∧ c.ahead = group ++ c'.ahead := by
  obtain ⟨group, middle, hgroup, hrest⟩ := bind_ok h
  obtain ⟨rfl, rfl⟩ := pure_ok hrest
  obtain ⟨inner, ⟨opening, closing, rfl, hopen, hclose, hinner⟩, hahead⟩ := group_reads hgroup
  have htail : (opening :: inner ++ [closing]).tail.dropLast = inner := by simp
  rw [htail]
  exact ⟨_, ⟨opening, closing, rfl, hopen, hclose, hinner⟩, hahead⟩

theorem skipIndexKind_reads {u : Unit} (h : skipIndexKind c = (.ok u, c')) :
    ∃ kind, IsIndexKind kind ∧ c.ahead = kind ++ c'.ahead := by
  obtain ⟨o, middle, ho, hrest⟩ := bind_ok h
  rcases accept_reads ho with ⟨word, rfl, hword, hahead⟩ | ⟨rfl, rfl, -⟩
  · obtain ⟨value, _, hvalue, hrest⟩ := bind_ok hrest
    obtain ⟨-, rfl⟩ := pure_ok hrest
    refine ⟨[word, value], .inr ⟨word, value, rfl, hword⟩, ?_⟩
    rw [hahead, advance_reads hvalue]
    rfl
  · obtain ⟨-, rfl⟩ := pure_ok hrest
    exact ⟨[], .inl rfl, rfl⟩

theorem skipSetting_reads {u : Unit} (h : skipSetting c = (.ok u, c')) :
    ∃ sign value, (sign = [] ∨ ∃ s, sign = [s] ∧ s.isOperator "=" = true) ∧
      c.ahead = sign ++ value :: c'.ahead := by
  obtain ⟨o, middle, ho, hrest⟩ := bind_ok h
  obtain ⟨value, last, hvalue, hrest⟩ := bind_ok hrest
  obtain ⟨-, rfl⟩ := pure_ok hrest
  have hahead := advance_reads hvalue
  rcases accept_reads ho with ⟨s, rfl, hs, hsign⟩ | ⟨rfl, rfl, -⟩
  · exact ⟨[s], value, .inr ⟨s, rfl, hs⟩, by rw [hsign, hahead]; rfl⟩
  · exact ⟨[], value, .inl rfl, hahead⟩

theorem skipIndexOption_reads {u : Unit} (h : skipIndexOption c = (.ok u, c')) :
    ∃ option, IsIndexOption option ∧ c.ahead = option ++ c'.ahead := by
  obtain ⟨word, middle, hword, hrest⟩ := bind_ok h
  obtain ⟨hahead, hoption⟩ := expectWord_reads hword
  split at hrest
  · next hvisible =>
      obtain ⟨-, rfl⟩ := pure_ok hrest
      exact ⟨[word], .visible hvisible, hahead⟩
  · next hvisible =>
      split at hrest
      · next hwith =>
          obtain ⟨parser, middle, hparser, hrest⟩ := bind_ok hrest
          obtain ⟨hparserAhead, hparser⟩ := expectWord_reads hparser
          obtain ⟨sign, value, hsign, hvalue⟩ := skipSetting_reads hrest
          refine ⟨[word, parser] ++ sign ++ [value],
            .setting (.inr ⟨word, parser, rfl, hwith, hparser⟩) hsign, ?_⟩
          simp [hahead, hparserAhead, hvalue]
      · next hwith =>
          obtain ⟨sign, value, hsign, hvalue⟩ := skipSetting_reads hrest
          refine ⟨[word] ++ sign ++ [value], .setting (.inl ⟨word, rfl, hoption,
            Bool.eq_false_iff.2 hvisible, Bool.eq_false_iff.2 hwith⟩) hsign, ?_⟩
          simp [hahead, hvalue]

/-- A repetition reads what its steps read, where each of them passes something. -/
theorem gather_reads {α : Type} {step : Reading α} {P : List Token → Prop} (hnil : P [])
    (hstep : ∀ {c c' : Cursor} {a : α}, step c = (.ok a, c') →
      ∃ piece, piece ≠ [] ∧ c.ahead = piece ++ c'.ahead ∧ (P c'.ahead → P (piece ++ c'.ahead)))
    {collected : List α} (h : gather step c = (.ok collected, c')) : P c.ahead := by
  unfold gather at h
  split at h
  · next collected' last hcollect =>
      clear h
      induction hlength : c.ahead.length using Nat.strongRecOn generalizing c collected' with
      | ind length ih =>
          subst hlength
          cases hahead : c.ahead with
          | nil => exact hnil
          | cons t rest =>
              obtain ⟨a, middle, more, hfirst, -, hmore⟩ := collect_cons_ok hahead hcollect
              obtain ⟨piece, hne, hpiece, hP⟩ := hstep hfirst
              have hlt : middle.ahead.length < c.ahead.length := by
                have := List.length_pos_iff.2 hne
                rw [hpiece, List.length_append]
                omega
              rw [← hahead, hpiece]
              exact hP (ih _ hlt _ (hmore hlt) rfl)
  · simp at h

theorem skipIndexOptions_reads {u : Unit} (h : skipIndexOptions c = (.ok u, c')) :
    IndexOptions c.ahead := by
  obtain ⟨_, middle, hgather, -⟩ := bind_ok h
  refine gather_reads .nil (fun {c c' a} hstep => ?_) hgather
  obtain ⟨option, hoption, hahead⟩ := skipIndexOption_reads hstep
  refine ⟨option, ?_, hahead, .cons hoption⟩
  cases hoption with
  | visible => simp
  | setting => simp

/-- Behind the name of a key column its length and its direction are all. -/
theorem keyPart_reads {column : IndexColumn} (h : keyPart c = (.ok column, c')) :
    IsKeyPart c.ahead column := by
  have hdirection : ∀ {c : Cursor} {name : Text}, keyPart.keyDirection name c = (.ok column, c') →
      ∃ shown, column = ⟨name, shown⟩ ∧ (c.ahead = [] ∧ shown = [] ∨
        ∃ d, c.ahead = [d] ∧ d.isWord ["ASC", "DESC"] = true ∧ shown = d.upper) := by
    intro c name h
    obtain ⟨o, middle, ho, hrest⟩ := bind_ok h
    obtain ⟨_, _, hhere, hrest⟩ := bind_ok hrest
    obtain ⟨rfl, rfl⟩ := here_ok hhere
    cases hnext : middle.next? with
    | some t =>
        rw [hnext] at hrest
        exact (fail_not_ok hrest).elim
    | none =>
        rw [hnext] at hrest
        obtain ⟨rfl, rfl⟩ := pure_ok hrest
        have hend : middle.ahead = [] := List.head?_eq_none_iff.1 hnext
        refine ⟨_, rfl, ?_⟩
        rcases accept_reads ho with ⟨d, rfl, hd, hahead⟩ | ⟨rfl, rfl, -⟩
        · exact .inr ⟨d, by rw [hahead, hend], hd, rfl⟩
        · exact .inl ⟨hend, rfl⟩
  obtain ⟨name, middle, hname, hrest⟩ := bind_ok h
  obtain ⟨t, hahead, ht, rfl⟩ := identifier_reads hname
  obtain ⟨_, _, hhere, hrest⟩ := bind_ok hrest
  obtain ⟨rfl, rfl⟩ := here_ok hhere
  rw [hahead]
  split at hrest
  · obtain ⟨inner, last, hinner, hrest⟩ := bind_ok hrest
    obtain ⟨group, hgroup, hmiddle⟩ := parenthesized_reads hinner
    rcases inner with _ | ⟨n, _ | ⟨_, _⟩⟩
    · exact (fail_not_ok hrest).elim
    · dsimp only at hrest
      split at hrest
      · next hnumber =>
          obtain ⟨shown, rfl, hlast⟩ := hdirection hrest
          rw [hmiddle]
          exact .column ht (.inr ⟨n, hgroup, hnumber⟩) hlast
      · exact (fail_not_ok hrest).elim
    · exact (fail_not_ok hrest).elim
  · obtain ⟨shown, rfl, hlast⟩ := hdirection hrest
    have hpart := IsKeyPart.column ht (.inl rfl) hlast
    exact hpart

theorem keyColumns_ok {tokens : List Token} {columns : List IndexColumn}
    (h : keyColumns tokens = .ok columns) :
    List.Forall₂ (fun part column => IsKeyPart (Cursor.withoutSemicolon part) column)
      (splitTopLevel "," tokens) columns := by
  unfold keyColumns at h
  generalize splitTopLevel "," tokens = parts at h ⊢
  induction parts generalizing columns with
  | nil =>
      cases h
      exact .nil
  | cons part parts ih =>
      rw [List.mapM_cons] at h
      obtain ⟨column, hcolumn, h⟩ := except_bind_ok.1 h
      obtain ⟨more, hmore, h⟩ := except_bind_ok.1 h
      cases h
      exact .cons (keyPart_reads (Prod.ext hcolumn rfl)) (ih hmore)

theorem keyList_reads {columns : List IndexColumn} (h : keyList c = (.ok columns, c')) :
    ∃ first more list, columns = first :: more ∧ IsKeyList columns list ∧
      c.ahead = list ++ c'.ahead := by
  obtain ⟨inner, middle, hinner, hrest⟩ := bind_ok h
  obtain ⟨list, hlist, hahead⟩ := parenthesized_reads hinner
  obtain ⟨hcolumns, rfl⟩ := lift_ok hrest
  have hcolumns : IsKeyList columns list := ⟨inner, hlist, keyColumns_ok hcolumns⟩
  obtain ⟨first, more, rfl⟩ := List.exists_cons_of_ne_nil hcolumns.ne_nil
  exact ⟨first, more, list, rfl, hcolumns, hahead⟩

theorem keyName?_reads {name : Option Text} (h : keyName? c = (.ok name, c')) :
    ∃ named, IsKeyName named (name.getD []) ∧ c.ahead = named ++ c'.ahead := by
  obtain ⟨_, _, hhere, hrest⟩ := bind_ok h
  obtain ⟨rfl, rfl⟩ := here_ok hhere
  cases hnext : c.next? with
  | none =>
      rw [hnext] at hrest
      obtain ⟨rfl, rfl⟩ := pure_ok hrest
      exact ⟨[], .missing, rfl⟩
  | some t =>
      rw [hnext] at hrest
      dsimp only at hrest
      split at hrest
      · obtain ⟨rfl, rfl⟩ := pure_ok hrest
        exact ⟨[], .missing, rfl⟩
      · next hname =>
          obtain ⟨name, middle, hidentifier, hrest⟩ := bind_ok hrest
          obtain ⟨rfl, rfl⟩ := pure_ok hrest
          obtain ⟨u, hahead, hu, rfl⟩ := identifier_reads hidentifier
          obtain rfl : u = t := by simpa [Cursor.next?, hahead] using hnext
          rw [Bool.or_eq_true, not_or] at hname
          exact ⟨[u], .given hu (Bool.eq_false_iff.2 hname.2), hahead⟩

/-- A key is a name that may be missing, a kind of index, its columns, and options. -/
theorem key_reads {table : Text} {unique : Bool} {index : Index}
    (h : key table unique c = (.ok index, c')) : IsKey table unique c.ahead index := by
  obtain ⟨name, _, hname, hrest⟩ := bind_ok h
  obtain ⟨_, _, hkind, hrest⟩ := bind_ok hrest
  obtain ⟨columns, _, hcolumns, hrest⟩ := bind_ok hrest
  obtain ⟨_, _, hoptions, hrest⟩ := bind_ok hrest
  obtain ⟨rfl, rfl⟩ := pure_ok hrest
  obtain ⟨named, hnamed, hahead⟩ := keyName?_reads hname
  obtain ⟨kind, hkind, hkindAhead⟩ := skipIndexKind_reads hkind
  obtain ⟨first, more, list, rfl, hlist, hlistAhead⟩ := keyList_reads hcolumns
  rw [hahead, hkindAhead, hlistAhead, ← List.append_assoc, ← List.append_assoc]
  exact .key hnamed hkind hlist (skipIndexOptions_reads hoptions)

end Reading

end Restate

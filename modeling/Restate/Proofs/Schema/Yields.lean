import Restate.Proofs.Schema.Faults

/-!
# What readings yield

A reading that finds ahead of it what it is for passes just that and leaves the rest. Main
statements: a key with a name is read from its name, its columns, and a kind of index before or
behind them (`Reading.Yields.key`), and a column with nothing else to it from its name and its type
(`Reading.Yields.plainColumn`). A reading built from others is put together at its binds
(`Reading.Yields.cons`, `Reading.Yields.bind`).
-/

namespace Restate

/-- A name in backticks. -/
def Token.Quotes (t : Token) (name : Text) : Prop :=
  t.kind = .quotedIdentifier ∧ t.value = name

namespace Token.Quotes

variable {t : Token} {name : Text}

theorem isName (h : t.Quotes name) : t.isName :=
  .inl h.1

theorem not_isPunct (h : t.Quotes name) (mark : Text) : t.isPunct mark = false := by
  rw [Token.isPunct, h.1]
  rfl

theorem not_isWord (h : t.Quotes name) (words : List Text) : t.isWord words = false := by
  rw [Token.isWord, h.1]
  rfl

end Token.Quotes

namespace Token

variable {t : Token} {words : List Text}

theorem not_isPunct_of_isWord (h : t.isWord words = true) (mark : Text) :
    t.isPunct mark = false := by
  cases hmark : t.isPunct mark with
  | false => rfl
  | true => exact (ne_true_of_eq_false (not_isBare_of_isPunct hmark) (isWord_iff.1 h).1).elim

theorem not_isWord_of_isPunct {mark : Text} (h : t.isPunct mark = true) (words : List Text) :
    t.isWord words = false := by
  rw [isWord, not_isBare_of_isPunct h]
  rfl

theorem not_isOperator_of_isWord (h : t.isWord words = true) (sign : Text) :
    t.isOperator sign = false := by
  have hbare := (isWord_iff.1 h).1
  cases hkind : t.kind with
  | operator => simp [hkind, TokenKind.isBare] at hbare
  | _ => simp [isOperator, hkind]

end Token

/-- `USING` and a kind of index, which may be missing. -/
def IsUsing (kind : List Token) : Prop :=
  kind = [] ∨ ∃ word value, kind = [word, value] ∧ word.isWord ["USING"] = true ∧
    value.isWord ["BTREE", "HASH"] = true

/-- The word that marks a key as unique, if it is. -/
inductive MarksUnique : Bool → List Token → Prop where
  | plain : MarksUnique false []
  | unique {word : Token} : word.isWord ["UNIQUE"] = true → MarksUnique true [word]

/-- A key behind the words that introduce it: its name in backticks, its columns, and a kind of
index before or behind them. -/
inductive NamesKey (name : Text) (columns : List IndexColumn) : List Token → Prop where
  | key {named : Token} {kind list options : List Token} : named.Quotes name → IsUsing kind →
      IsKeyList columns list → IsUsing options →
      NamesKey name columns (named :: (kind ++ (list ++ options)))

theorem IsKeyList.opens {columns : List IndexColumn} {list more : List Token} {t : Token}
    (h : IsKeyList columns list) (ht : t ∈ (list ++ more).head?) : t.isPunct "(" = true := by
  obtain ⟨inner, ⟨opening, closing, rfl, hopen, -, -⟩, -⟩ := h
  obtain rfl : opening = t := by simpa using ht
  exact hopen

namespace Reading

variable {α β : Type} {t : Token} {piece rest : List Token} {a : α} {b : β}

/-- The reading passes the piece, whatever was passed before, yields the value and leaves the
rest. -/
def Yields (x : Reading α) (piece : List Token) (a : α) (rest : List Token) : Prop :=
  ∀ passed, x ⟨passed, piece ++ rest⟩ = (.ok a, ⟨piece.reverse ++ passed, rest⟩)

namespace Yields

theorem run {x : Reading α} {tokens : List Token}
    (h : Yields x (Cursor.withoutSemicolon tokens) a []) : x.run tokens = .ok a := by
  have hread := h []
  rw [List.append_nil] at hread
  rw [Reading.run, Cursor.ofTokens, hread]

theorem pure (a : α) : Yields (Pure.pure a) [] a rest :=
  fun _ => rfl

theorem bind {x : Reading α} {f : α → Reading β} {more : List Token}
    (hx : Yields x piece a (more ++ rest)) (hf : Yields (f a) more b rest) :
    Yields (x >>= f) (piece ++ more) b rest := by
  intro passed
  rw [List.append_assoc, bind_of_ok (hx passed), hf, List.reverse_append, List.append_assoc]

theorem cons {x : Reading α} {f : α → Reading β} (hx : Yields x [t] a (piece ++ rest))
    (hf : Yields (f a) piece b rest) : Yields (x >>= f) (t :: piece) b rest :=
  bind hx hf

theorem stay {x : Reading α} {f : α → Reading β} (hx : Yields x [] a (piece ++ rest))
    (hf : Yields (f a) piece b rest) : Yields (x >>= f) piece b rest :=
  bind hx hf

theorem last {x : Reading α} {f : α → Reading β} (hx : Yields x piece a rest)
    (hf : Yields (f a) [] b rest) : Yields (x >>= f) piece b rest := by
  have hread : Yields (x >>= f) (piece ++ []) b rest := bind hx hf
  rwa [List.append_nil] at hread

/-- Looking at the cursor passes nothing. -/
theorem here {f : Cursor → Reading β}
    (hf : ∀ passed, Yields (f ⟨passed, piece ++ rest⟩) piece b rest) :
    Yields (Reading.here >>= f) piece b rest :=
  fun passed => hf passed passed

theorem advance : Yields Reading.advance [t] t rest :=
  fun _ => rfl

theorem accept {p : Token → Bool} (h : p t = true) :
    Yields (Reading.accept p) [t] (some t) rest :=
  fun _ => accept_of_ahead rfl h

theorem decline {p : Token → Bool} (h : ∀ t ∈ rest.head?, p t = false) :
    Yields (Reading.accept p) [] none rest :=
  fun _ => accept_of_other h

theorem marked {unique : Bool} (h : MarksUnique unique piece)
    (hrest : ∀ t ∈ rest.head?, t.isWord ["UNIQUE"] = false) :
    ∃ o, o.isSome = unique ∧ Yields (acceptWord ["UNIQUE"]) piece o rest := by
  cases h with
  | plain => exact ⟨none, rfl, decline hrest⟩
  | @unique word hword => exact ⟨some word, rfl, accept hword⟩

/-- A choice by the next token is taken if the token is there. -/
theorem accepting {p : Token → Bool} {x y : Reading α} (h : p t = true)
    (hx : Yields x piece a rest) :
    Yields (do if (← Reading.accept p).isSome then x else y) (t :: piece) a rest :=
  cons (accept h) hx

/-- A choice by the next token is passed over if another token is there. -/
theorem declining {p : Token → Bool} {x y : Reading α}
    (h : ∀ t ∈ (piece ++ rest).head?, p t = false) (hy : Yields y piece a rest) :
    Yields (do if (← Reading.accept p).isSome then x else y) piece a rest :=
  stay (decline h) hy

/-- A choice by what the next token is passes nothing. -/
theorem choosing {p : Token → Bool} {x y : Reading α}
    (h : (piece ++ rest).head?.any p = true) (hx : Yields x piece a rest) :
    Yields (do if (← Reading.here).nextIs p then x else y) piece a rest := by
  refine here fun passed => ?_
  rw [nextIs_eq, if_pos (show (piece ++ rest).head?.any p = true from h)]
  exact hx

theorem avoiding {p : Token → Bool} {x y : Reading α}
    (h : ∀ t ∈ (piece ++ rest).head?, p t = false) (hy : Yields y piece a rest) :
    Yields (do if (← Reading.here).nextIs p then x else y) piece a rest := by
  refine here fun passed => ?_
  have hnext : (piece ++ rest).head?.any p = false := by
    cases hhead : (piece ++ rest).head? with
    | none => rfl
    | some t => exact h t (by rw [hhead]; rfl)
  rw [nextIs_eq, if_neg (show ¬ (piece ++ rest).head?.any p = true from ne_true_of_eq_false hnext)]
  exact hy

theorem expectWord {words : List Text} (h : t.isWord words = true) :
    Yields (Reading.expectWord words) [t] t rest :=
  cons (accept h) (pure t)

theorem identifier (h : t.isName) : Yields Reading.identifier [t] t.value rest := by
  refine cons advance ?_
  rw [if_pos (show t.kind = .quotedIdentifier ∨ t.kind.isBare = true from h)]
  exact pure _

theorem tableName (h : t.isName) (hrest : ∀ u ∈ rest.head?, u.isPunct "." = false) :
    Yields Reading.tableName [t] t.value rest := by
  exact cons (identifier h) (avoiding hrest (pure _))

theorem group {inner : List Token} (h : IsGroup inner piece) :
    Yields Reading.group piece piece rest := by
  obtain ⟨opening, closing, rfl, hopen, hclose, hinner⟩ := h
  intro passed
  have hclosing := hinner.closingFrom_one hclose rest
  have hahead : opening :: inner ++ [closing] ++ rest = opening :: (inner ++ closing :: rest) := by
    simp
  have hlength : inner.length + 2 = (opening :: inner ++ [closing]).length := by simp
  unfold Reading.group
  rw [hahead]
  dsimp only
  rw [if_pos hopen, hclosing, ← hahead]
  dsimp only [Cursor.skip]
  rw [hlength, List.take_left, List.drop_left]

theorem parenthesized {inner : List Token} (h : IsGroup inner piece) :
    Yields Reading.parenthesized piece inner rest := by
  have hinner : piece.tail.dropLast = inner := by
    obtain ⟨opening, closing, rfl, -⟩ := h
    simp
  rw [← hinner]
  exact last (group h) (pure _)

theorem skipIndexKind (h : IsUsing piece) (hrest : ∀ t ∈ rest.head?, t.isWord ["USING"] = false) :
    Yields Reading.skipIndexKind piece () rest := by
  obtain rfl | ⟨word, value, rfl, hword, -⟩ := h
  · exact stay (decline hrest) (pure ())
  · exact cons (accept hword) (cons advance (pure ()))

/-- Where no token lies ahead, nothing is repeated. -/
theorem gather_nil {step : Reading α} : Yields (gather step) [] [] [] := by
  intro passed
  have hcollect : collect step ⟨passed, []⟩ = ([], .ok (), ⟨passed, []⟩) := by
    rw [collect]
    rfl
  exact (by rw [gather, hcollect] : gather step ⟨passed, []⟩ = (.ok [], ⟨passed, []⟩))

/-- A repetition that ends with one step. -/
theorem gather_one {step : Reading α} (hpiece : piece ≠ []) (h : Yields step piece a []) :
    Yields (gather step) piece [a] [] := by
  intro passed
  have hread := h passed
  rw [List.append_nil] at hread ⊢
  have hlt : ([] : List Token).length < piece.length := List.length_pos_iff.2 hpiece
  have hcollect : collect step ⟨passed, piece⟩ = ([a], .ok (), ⟨piece.reverse ++ passed, []⟩) := by
    rw [collect, if_neg (by simpa [Cursor.atEnd] using hpiece), hread]
    dsimp only
    rw [if_pos hlt, collect]
    rfl
  rw [gather, hcollect]

theorem skipIndexOption {word value : Token} (hword : word.isWord ["USING"] = true)
    (hvalue : value.isWord ["BTREE", "HASH"] = true) :
    Yields Reading.skipIndexOption [word, value] () [] := by
  have hnot : ∀ {words : List Text}, (∀ w ∈ ["USING".toList], w ∉ words) →
      ¬ word.isWord words = true := fun hwords =>
    ne_true_of_eq_false (Token.isWord_of_disjoint hword hwords)
  refine cons (expectWord (Token.isWord_of_subset hword (by decide))) ?_
  rw [if_neg (hnot (by decide)), if_neg (hnot (by decide))]
  have hsign := Token.not_isOperator_of_isWord hvalue "="
  exact stay (decline (by simpa using hsign)) (cons advance (pure ()))

theorem skipIndexOptions (h : IsUsing piece) : Yields Reading.skipIndexOptions piece () [] := by
  obtain rfl | ⟨word, value, rfl, hword, hvalue⟩ := h
  · exact last gather_nil (pure ())
  · exact last (gather_one (by simp) (skipIndexOption hword hvalue)) (pure ())

theorem keyDirection {name shown : Text}
    (h : piece = [] ∧ shown = [] ∨
      ∃ d, piece = [d] ∧ d.isWord ["ASC", "DESC"] = true ∧ shown = d.upper) :
    Yields (keyPart.keyDirection name) piece ⟨name, shown⟩ [] := by
  rcases h with ⟨rfl, rfl⟩ | ⟨d, rfl, hd, rfl⟩
  · exact stay (decline (by simp)) (here fun _ => pure _)
  · exact cons (accept hd) (here fun _ => pure _)

theorem keyPart {column : IndexColumn} (h : IsKeyPart piece column) :
    Yields Reading.keyPart piece column [] := by
  obtain @⟨name, length, direction, shown, hname, hlength, hdirection⟩ := h
  rw [List.cons_append]
  refine cons (identifier hname) ?_
  have hlast : Yields (keyPart.keyDirection name.value) direction ⟨name.value, shown⟩ [] :=
    keyDirection hdirection
  rcases hlength with rfl | ⟨n, hgroup, hnumber⟩
  · refine avoiding ?_ hlast
    rcases hdirection with ⟨rfl, -⟩ | ⟨d, rfl, hd, -⟩
    · simp
    · simpa using Token.not_isPunct_of_isWord hd "("
  · refine choosing ?_ (bind (parenthesized hgroup) ?_)
    · obtain ⟨opening, closing, rfl, hopen, -⟩ := hgroup
      simpa using hopen
    · dsimp only
      rw [if_pos hnumber]
      exact hlast

/-- The columns of a key are read part by part. -/
theorem keyColumns {tokens : List Token} {columns : List IndexColumn}
    (h : List.Forall₂ (fun part column => IsKeyPart (Cursor.withoutSemicolon part) column)
      (splitTopLevel "," tokens) columns) : Reading.keyColumns tokens = .ok columns := by
  unfold Reading.keyColumns
  generalize splitTopLevel "," tokens = parts at h
  induction h with
  | nil => rfl
  | cons hpart _ ih =>
      rw [List.mapM_cons, (keyPart hpart).run, ih]
      rfl

theorem keyList {columns : List IndexColumn} (h : IsKeyList columns piece) :
    Yields Reading.keyList piece columns rest := by
  obtain ⟨inner, hgroup, hparts⟩ := h
  refine last (parenthesized hgroup) ?_
  rw [keyColumns hparts]
  exact fun _ => rfl

theorem keyName {name : Text} (h : t.Quotes name) :
    Yields Reading.keyName? [t] (some name) rest := by
  refine here fun passed => ?_
  rw [show (Cursor.mk passed ([t] ++ rest)).next? = some t from rfl]
  dsimp only
  rw [h.not_isPunct, h.not_isWord, ← h.2]
  exact last (identifier h.isName) (pure _)

/-- A key with a name is read from its name, its columns, and a kind of index before or behind
them. -/
theorem key {name table : Text} {unique : Bool} {columns : List IndexColumn} (hname : name ≠ [])
    (h : NamesKey name columns piece) :
    Yields (Reading.key table unique) piece ⟨name, table, unique, columns⟩ [] := by
  obtain @⟨named, kind, list, options, hnamed, hkind, hlist, hoptions⟩ := h
  refine cons (keyName hnamed) (bind (skipIndexKind hkind ?_) (bind (keyList hlist)
    (last (skipIndexOptions hoptions) ?_)))
  · intro t ht
    rw [List.append_nil] at ht
    exact Token.not_isWord_of_isPunct (hlist.opens ht) _
  · dsimp only [Option.getD_some]
    rw [if_neg (by simpa using hname)]
    exact pure _

section PlainColumn

variable {types : Fields Text} {word : Token} {target : Text}

/-- A type of one word is read from it. -/
theorem columnType (hword : word.kind.isBare = true)
    (htarget : mapType types word.text = .ok target) :
    Yields (Reading.columnType types) [word] ⟨target, word, word⟩ [] := by
  intro passed
  have hbehind : (do
      skipGroup
      columnType.skipModifiers
      let target ← lift (mapType types word.text)
      return ⟨target, word, ← lastPassed word⟩ : Reading TypeSpan) ⟨word :: passed, []⟩ =
        (.ok ⟨target, word, word⟩, ⟨word :: passed, []⟩) := by
    rw [htarget]
    rfl
  refine (bind_of_ok (advance passed) _).trans ?_
  rw [if_neg (by simp [hword])]
  -- whether or not a second word is looked for, none is there
  split
  · exact (bind_of_ok (decline (by simp) _) _).trans hbehind
  · exact hbehind

/-- A column with a type of one word and nothing else is read from its name and its type. -/
theorem plainColumn {sql table name : Text} {named : Token} (hnamed : named.Quotes name)
    (hword : word.kind.isBare = true) (htarget : mapType types word.text = .ok target) :
    Yields (Reading.definition types sql table) [named, word] (.column (Column.bare name
      ((sql.drop word.start).take (word.stop - word.start)) target)) [] := by
  have hnot : ∀ words, ∀ t ∈ ([named, word] ++ []).head?, t.isWord words = false := by
    simpa using hnamed.not_isWord
  refine declining (hnot _) (declining (hnot _) (declining (hnot _) (declining (hnot _) ?_)))
  refine here fun passed => ?_
  rw [show (Cursor.mk passed ([named, word] ++ [])).next? = some named from rfl]
  dsimp only
  rw [hnamed.not_isWord, hnamed.not_isWord, ← hnamed.2]
  exact last (cons (identifier hnamed.isName) (last (columnType hword htarget)
    (stay gather_nil (pure _)))) (pure _)

end PlainColumn

end Yields

end Reading

end Restate

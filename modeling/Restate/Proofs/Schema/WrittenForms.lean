import Restate.Proofs.Lexing.Writing
import Restate.Proofs.Schema.IndexForms

/-!
# Index statements as they are written

The statements that add and drop an index spelled out in words, names in backticks, numerals and
marks, for every name, every length and direction and every kind of index. Main statements: what is
so written are statements that add the index (`addsIndex_written`), create a table
(`createsTable_written`) and drop the index (`dropsIndex_written`).
-/

namespace Restate

namespace Token

variable {t u : Token}

theorem isBare_of_ofWord {word : Text} (h : t.unplaced = ofWord word) :
    t.kind.isBare = true := by
  rw [← unplaced_kind, h]
  unfold ofWord
  dsimp only
  split
  · rfl
  · rfl

theorem isWord_of_ofWord {word : Text} {words : List Text} (h : t.unplaced = ofWord word)
    (hword : Text.upper word ∈ words) : t.isWord words = true := by
  refine isWord_iff.2 ⟨isBare_of_ofWord h, ?_⟩
  rw [← unplaced_upper, h]
  exact hword

theorem isPunct_of_unplaced (h : t.unplaced = u) (mark : Text) :
    t.isPunct mark = u.isPunct mark := by
  rw [← h, unplaced_isPunct]

theorem not_isPunct_of_ofWord {word : Text} (h : t.unplaced = ofWord word) (mark : Text) :
    t.isPunct mark = false := by
  rw [isPunct_of_unplaced h, isPunct, ofWord]
  split
  · rfl
  · rfl

theorem Quotes.of_unplaced {name : Text} (h : t.unplaced = ofName name) : t.Quotes name := by
  constructor
  · rw [← unplaced_kind, h]
    rfl
  · rw [← unplaced_value, h]
    exact decodeIdentifier_delimited (.inl rfl) name

end Token

/-- The direction of a column in an index. -/
inductive Direction where
  | ascending
  | descending

/-- How a column of a key is written. -/
structure KeyPart where
  name : Text
  length : Option Nat
  direction : Option Direction

def Direction.word : Direction → Text
  | .ascending => "ASC"
  | .descending => "DESC"

theorem Direction.upper_word (direction : Direction) :
    Text.upper direction.word = direction.word ∧
      Text.upper direction.word ∈ ["ASC".toList, "DESC"] := by
  cases direction with
  | ascending => decide
  | descending => decide

namespace KeyPart

def column (part : KeyPart) : IndexColumn :=
  ⟨part.name, part.direction.elim [] Direction.word⟩

def lengthTokens : Option Nat → List Token
  | none => []
  | some n => [.ofMark '(', .ofNumeral n, .ofMark ')']

def directionTokens : Option Direction → List Token
  | none => []
  | some direction => [.ofWord direction.word]

def tokens (part : KeyPart) : List Token :=
  .ofName part.name :: lengthTokens part.length ++ directionTokens part.direction

variable {part : KeyPart} {parts : List KeyPart} {ts : List Token}

theorem isLength {length : Option Nat} (h : ts.map Token.unplaced = lengthTokens length) :
    ts = [] ∨ ∃ n, IsGroup [n] ts ∧ n.kind = .number := by
  cases length with
  | none => exact .inl (List.map_eq_nil_iff.1 h)
  | some n =>
      obtain ⟨opening, more, rfl, hopen, hmore⟩ := List.map_eq_cons_iff.1 h
      obtain ⟨number, more, rfl, hnumber, hmore⟩ := List.map_eq_cons_iff.1 hmore
      obtain ⟨closing, more, rfl, hclose, hmore⟩ := List.map_eq_cons_iff.1 hmore
      obtain rfl := List.map_eq_nil_iff.1 hmore
      have hbalanced : Balanced [number] :=
        .token (Token.isPunct_of_unplaced hnumber _) (Token.isPunct_of_unplaced hnumber _) .nil
      exact .inr ⟨number, ⟨opening, closing, rfl, Token.isPunct_of_unplaced hopen _,
        Token.isPunct_of_unplaced hclose _, hbalanced⟩, congrArg Token.kind hnumber⟩

theorem isDirection {direction : Option Direction}
    (h : ts.map Token.unplaced = directionTokens direction) :
    ts = [] ∧ direction.elim [] Direction.word = [] ∨ ∃ d, ts = [d] ∧
      d.isWord ["ASC", "DESC"] = true ∧ direction.elim [] Direction.word = d.upper := by
  cases direction with
  | none => exact .inl ⟨List.map_eq_nil_iff.1 h, rfl⟩
  | some direction =>
      obtain ⟨word, more, rfl, hword, hmore⟩ := List.map_eq_cons_iff.1 h
      obtain rfl := List.map_eq_nil_iff.1 hmore
      obtain ⟨hshown, hmem⟩ := direction.upper_word
      have hupper : word.upper = Text.upper direction.word := by
        rw [← Token.unplaced_upper, hword]
        rfl
      exact .inr ⟨word, rfl, Token.isWord_of_ofWord hword hmem, (hupper.trans hshown).symm⟩

theorem isKeyPart (h : ts.map Token.unplaced = part.tokens) : IsKeyPart ts part.column := by
  obtain ⟨front, direction, rfl, hfront, hdirection⟩ := List.map_eq_append_iff.1 h
  obtain ⟨named, length, rfl, hnamed, hlength⟩ := List.map_eq_cons_iff.1 hfront
  have hquotes := Token.Quotes.of_unplaced hnamed
  have hpart := IsKeyPart.column hquotes.isName (isLength hlength) (isDirection hdirection)
  rwa [hquotes.2] at hpart

theorem spelled (part : KeyPart) : ∀ t ∈ part.tokens, t.Spelled := by
  obtain ⟨name, length, direction⟩ := part
  have hlength : ∀ t ∈ lengthTokens length, t.Spelled := by
    cases length with
    | none => simp [lengthTokens]
    | some n => simp [lengthTokens, Token.Spelled.mark, Token.Spelled.numeral]
  have hdirection : ∀ t ∈ directionTokens direction, t.Spelled := by
    cases direction with
    | none => simp [directionTokens]
    | some direction =>
        cases direction with
        | ascending => exact List.forall_mem_singleton.2 (.word (by decide))
        | descending => exact List.forall_mem_singleton.2 (.word (by decide))
  exact List.forall_mem_append.2 ⟨List.forall_mem_cons.2 ⟨.name name, hlength⟩, hdirection⟩

end KeyPart

section Columns

variable {column : IndexColumn} {separator : Text} {ts : List Token}

theorem not_isPunct_of_isName {t : Token} (h : t.isName) (mark : Text) :
    t.isPunct mark = false := by
  cases hmark : t.isPunct mark with
  | false => rfl
  | true =>
      rcases h with h | h
      · simp [Token.isPunct, h] at hmark
      · exact (ne_true_of_eq_false (not_isBare_of_isPunct hmark) h).elim

theorem Undivided.keyPart (h : IsKeyPart ts column) : Undivided separator ts := by
  obtain @⟨name, length, direction, shown, hname, hlength, hdirection⟩ := h
  have hlast : Undivided separator direction := by
    rcases hdirection with ⟨rfl, -⟩ | ⟨d, rfl, hd, -⟩
    · exact nil
    · exact word hd nil
  refine .token (not_isPunct_of_isName hname _) (not_isPunct_of_isName hname _)
    (not_isPunct_of_isName hname _) (append ?_ hlast)
  rcases hlength with rfl | ⟨n, ⟨opening, closing, rfl, hopen, hclose, hinner⟩, -⟩
  · exact nil
  · exact .group hopen hclose hinner .nil

theorem Token.Spelled.not_semicolon {t u : Token} (hu : u.Spelled) (h : t.unplaced = u) :
    t.isPunct ";" = false := by
  cases hu with
  | word _ => exact not_isPunct_of_ofWord h _
  | @mark c hmark =>
      rw [isPunct_of_unplaced h]
      simp only [List.mem_cons, List.not_mem_nil, or_false] at hmark
      rcases hmark with rfl | rfl | rfl
      · rfl
      · rfl
      · rfl
  | numeral n => exact isPunct_of_unplaced h _
  | name name => exact isPunct_of_unplaced h _

theorem Cursor.withoutSemicolon_of_spelled {form : List Token} (hform : ∀ u ∈ form, u.Spelled)
    (h : ts.map Token.unplaced = form) : Cursor.withoutSemicolon ts = ts := by
  subst h
  unfold withoutSemicolon
  split
  · next t hlast =>
      have ht : t ∈ ts := List.mem_of_getLast? hlast
      rw [if_neg (ne_true_of_eq_false
        ((hform _ (List.mem_map_of_mem ht)).not_semicolon rfl))]
  · rfl

/-- Pieces with commas between them. -/
def separated (pieces : List (List Token)) : List Token :=
  [Token.ofMark ','].intercalate pieces

theorem separated_cons_cons (piece next : List Token) (pieces : List (List Token)) :
    separated (piece :: next :: pieces) =
      piece ++ .ofMark ',' :: separated (next :: pieces) := by
  unfold separated
  rw [List.intercalate_cons_cons, List.append_assoc, List.singleton_append]

/-- Between the commas stand the pieces, if these hold no commas of their own. -/
theorem splitTopLevel_separated {piece : List Token} {pieces : List (List Token)}
    (hpieces : ∀ p ∈ piece :: pieces, ∀ ts : List Token, ts.map Token.unplaced = p →
      Undivided "," ts)
    (h : ts.map Token.unplaced = separated (piece :: pieces)) :
    Balanced ts ∧ (splitTopLevel "," ts).map (·.map Token.unplaced) = piece :: pieces := by
  induction pieces generalizing piece ts with
  | nil =>
      have hone : ts.map Token.unplaced = piece := h.trans List.intercalate_singleton
      have hundivided := hpieces piece (.head _) ts hone
      rw [hundivided.splitTopLevel_eq]
      exact ⟨hundivided.balanced, congrArg (fun piece => [piece]) hone⟩
  | cons next pieces ih =>
      rw [separated_cons_cons] at h
      obtain ⟨front, more, rfl, hfront, hmore⟩ := List.map_eq_append_iff.1 h
      obtain ⟨comma, rest, rfl, hcomma, hrest⟩ := List.map_eq_cons_iff.1 hmore
      have hundivided := hpieces piece (.head _) front hfront
      have hmark := Token.isPunct_of_unplaced hcomma
      obtain ⟨hbalanced, hsplit⟩ := ih (fun p hp => hpieces p (.tail _ hp)) hrest
      rw [hundivided.splitTopLevel_cons (hmark _) (hmark _) (hmark _), List.map_cons, hfront,
        hsplit]
      exact ⟨hundivided.balanced.append (.token (hmark _) (hmark _) hbalanced), rfl⟩

theorem spelled_separated {pieces : List (List Token)}
    (h : ∀ piece ∈ pieces, ∀ t ∈ piece, t.Spelled) : ∀ t ∈ separated pieces, t.Spelled := by
  induction pieces with
  | nil => simp [separated]
  | cons piece pieces ih =>
      obtain ⟨hpiece, hpieces⟩ := List.forall_mem_cons.1 h
      cases pieces with
      | nil =>
          rw [show separated [piece] = piece from List.intercalate_singleton]
          exact hpiece
      | cons next pieces =>
          rw [separated_cons_cons]
          exact List.forall_mem_append.2
            ⟨hpiece, List.forall_mem_cons.2 ⟨.mark (by decide), ih hpieces⟩⟩

/-- The columns of a key in parentheses. -/
def columnTokens (parts : List KeyPart) : List Token :=
  .ofMark '(' :: (separated (parts.map KeyPart.tokens) ++ [.ofMark ')'])

theorem isKeyList {part : KeyPart} {parts : List KeyPart}
    (h : ts.map Token.unplaced = columnTokens (part :: parts)) :
    IsKeyList ((part :: parts).map KeyPart.column) ts := by
  obtain ⟨opening, rest, rfl, hopen, hrest⟩ := List.map_eq_cons_iff.1 h
  obtain ⟨inner, last, rfl, hinner, hlast⟩ := List.map_eq_append_iff.1 hrest
  obtain ⟨closing, more, rfl, hclose, hmore⟩ := List.map_eq_cons_iff.1 hlast
  obtain rfl := List.map_eq_nil_iff.1 hmore
  have hundivided : ∀ p ∈ (part :: parts).map KeyPart.tokens, ∀ ts : List Token,
      ts.map Token.unplaced = p → Undivided "," ts := by
    intro p hp ts hts
    obtain ⟨part, -, rfl⟩ := List.mem_map.1 hp
    exact .keyPart (KeyPart.isKeyPart hts)
  obtain ⟨hbalanced, hsplit⟩ := splitTopLevel_separated hundivided hinner
  have hparts : List.Forall₂ (fun piece part => piece.map Token.unplaced = KeyPart.tokens part)
      (splitTopLevel "," inner) (part :: parts) :=
    List.forall₂_map_left_iff.1 (List.forall₂_map_right_iff.1
      (List.forall₂_eq_eq_eq.symm ▸ hsplit))
  refine ⟨inner, ⟨opening, closing, rfl, Token.isPunct_of_unplaced hopen _,
    Token.isPunct_of_unplaced hclose _, hbalanced⟩, List.forall₂_map_right_iff.2 ?_⟩
  refine hparts.imp fun piece part hpiece => ?_
  rw [Cursor.withoutSemicolon_of_spelled part.spelled hpiece]
  exact KeyPart.isKeyPart hpiece

theorem spelled_columnTokens (parts : List KeyPart) : ∀ t ∈ columnTokens parts, t.Spelled := by
  have hparts : ∀ piece ∈ parts.map KeyPart.tokens, ∀ t ∈ piece, t.Spelled := by
    intro piece hpiece
    obtain ⟨part, -, rfl⟩ := List.mem_map.1 hpiece
    exact part.spelled
  refine List.forall_mem_cons.2
    ⟨.mark (by decide), List.forall_mem_append.2 ⟨spelled_separated hparts, ?_⟩⟩
  exact List.forall_mem_singleton.2 (.mark (by decide))

end Columns

/-- A kind of index. -/
inductive IndexKind where
  | btree
  | hash

def IndexKind.word : IndexKind → Text
  | .btree => "BTREE"
  | .hash => "HASH"

/-- How a key is written: its columns, of which there is a first one, and a kind of index before or
behind them. -/
structure WrittenKey where
  name : Text
  kindBefore : Option IndexKind
  first : KeyPart
  more : List KeyPart
  kindBehind : Option IndexKind

namespace WrittenKey

variable {ts : List Token}

def columns (key : WrittenKey) : List IndexColumn :=
  (key.first :: key.more).map KeyPart.column

/-- The key is the index's, without regard to lengths and kinds. -/
structure Writes (key : WrittenKey) (index : Index) : Prop where
  name : key.name = index.name
  columns : key.columns = index.columns

def kindTokens : Option IndexKind → List Token
  | none => []
  | some kind => [.ofWord "USING", .ofWord kind.word]

def tokens (key : WrittenKey) : List Token :=
  .ofName key.name ::
    (kindTokens key.kindBefore ++
      (columnTokens (key.first :: key.more) ++ kindTokens key.kindBehind))

theorem isUsing {kind : Option IndexKind} (h : ts.map Token.unplaced = kindTokens kind) :
    IsUsing ts := by
  cases kind with
  | none => exact .inl (List.map_eq_nil_iff.1 h)
  | some kind =>
      obtain ⟨word, more, rfl, hword, hmore⟩ := List.map_eq_cons_iff.1 h
      obtain ⟨value, more, rfl, hvalue, hmore⟩ := List.map_eq_cons_iff.1 hmore
      obtain rfl := List.map_eq_nil_iff.1 hmore
      have hkind : Text.upper kind.word ∈ ["BTREE".toList, "HASH"] := by
        cases kind with
        | btree => decide
        | hash => decide
      exact .inr ⟨word, value, rfl, Token.isWord_of_ofWord hword (by decide),
        Token.isWord_of_ofWord hvalue hkind⟩

theorem Writes.namesKey {key : WrittenKey} {index : Index} (hkey : key.Writes index)
    (h : ts.map Token.unplaced = key.tokens) : NamesKey index.name index.columns ts := by
  rw [← hkey.name, ← hkey.columns]
  obtain ⟨named, more, rfl, hnamed, hmore⟩ := List.map_eq_cons_iff.1 h
  obtain ⟨before, more, rfl, hbefore, hmore⟩ := List.map_eq_append_iff.1 hmore
  obtain ⟨list, behind, rfl, hlist, hbehind⟩ := List.map_eq_append_iff.1 hmore
  exact .key (.of_unplaced hnamed) (isUsing hbefore) (isKeyList hlist) (isUsing hbehind)

theorem spelled_kindTokens (kind : Option IndexKind) : ∀ t ∈ kindTokens kind, t.Spelled := by
  cases kind with
  | none => simp [kindTokens]
  | some kind =>
      have hkind : (Token.ofWord kind.word).Spelled := by
        cases kind with
        | btree => exact .word (by decide)
        | hash => exact .word (by decide)
      exact List.forall_mem_cons.2 ⟨.word (by decide), List.forall_mem_singleton.2 hkind⟩

theorem spelled (key : WrittenKey) : ∀ t ∈ key.tokens, t.Spelled := by
  unfold tokens
  simp only [List.forall_mem_cons, List.forall_mem_append]
  exact ⟨.name key.name, spelled_kindTokens _, spelled_columnTokens _, spelled_kindTokens _⟩

end WrittenKey

/-- How a column is written: its name, and a type of one word that is known. -/
structure WrittenColumn (types : Fields Text) where
  name : Text
  type : Text
  target : Text
  capitalized : Token.isCapitalized type = true
  known : mapType types type = .ok target

namespace WrittenColumn

variable {types : Fields Text} {c : WrittenColumn types} {ts : List Token}

def tokens (c : WrittenColumn types) : List Token :=
  [.ofName c.name, .ofWord c.type]

def column (c : WrittenColumn types) : Column :=
  Column.bare c.name c.type c.target

theorem spelled (c : WrittenColumn types) : ∀ t ∈ c.tokens, t.Spelled :=
  List.forall_mem_cons.2
    ⟨.name c.name, List.forall_mem_singleton.2 (.word c.capitalized)⟩

theorem undivided {separator : Text} (h : ts.map Token.unplaced = c.tokens) :
    Undivided separator ts := by
  obtain ⟨named, more, rfl, hnamed, hmore⟩ := List.map_eq_cons_iff.1 h
  obtain ⟨word, more, rfl, hword, hmore⟩ := List.map_eq_cons_iff.1 hmore
  obtain rfl := List.map_eq_nil_iff.1 hmore
  have htype := Token.not_isPunct_of_ofWord hword
  exact .quoted (.of_unplaced hnamed) (.token (htype _) (htype _) (htype _) .nil)

/-- A written column is read as one with its name and what its type becomes, whatever is cut out of
the statement as its type. -/
theorem run_definition {sql table : Text} (h : ts.map Token.unplaced = c.tokens) :
    ∃ source, (Reading.definition types sql table).run ts =
      .ok (.column (Column.bare c.name source c.target)) := by
  have hplain := Cursor.withoutSemicolon_of_spelled c.spelled h
  obtain ⟨named, more, rfl, hnamed, hmore⟩ := List.map_eq_cons_iff.1 h
  obtain ⟨word, more, rfl, hword, hmore⟩ := List.map_eq_cons_iff.1 hmore
  obtain rfl := List.map_eq_nil_iff.1 hmore
  have hknown : mapType types word.text = .ok c.target := by
    rw [← Token.unplaced_text, hword]
    exact c.known
  have hread := @Reading.Yields.plainColumn types word c.target sql table _ named
    (.of_unplaced hnamed) (Token.isBare_of_ofWord hword) hknown
  rw [← hplain] at hread
  exact ⟨_, hread.run⟩

end WrittenColumn

section Forms

variable {table word : Text} {index : Index} {unique : Bool} {key : WrittenKey} {ts : List Token}

/-- The words that introduce an index. -/
def indexWords : List Text :=
  ["KEY", "INDEX"]

def uniqueTokens : Bool → List Token
  | false => []
  | true => [.ofWord "UNIQUE"]

/-- A key with a name behind the word that introduces it. -/
def clauseTokens (word : Text) (unique : Bool) (key : WrittenKey) : List Token :=
  uniqueTokens unique ++ .ofWord word :: key.tokens

def alterTokens (table : Text) (action : List Token) : List Token :=
  .ofWord "ALTER" :: .ofWord "TABLE" :: .ofName table :: action

/-- The statements that add an index, as they are written. -/
def addingForms (table : Text) (unique : Bool) (key : WrittenKey) : List (List Token) :=
  [alterTokens table (.ofWord "ADD" :: clauseTokens "KEY" unique key),
    alterTokens table (.ofWord "ADD" :: clauseTokens "INDEX" unique key),
    .ofWord "CREATE" :: (uniqueTokens unique ++ .ofWord "INDEX" :: .ofName key.name ::
      (WrittenKey.kindTokens key.kindBefore ++ .ofWord "ON" :: .ofName table ::
        (columnTokens (key.first :: key.more) ++ WrittenKey.kindTokens key.kindBehind)))]

/-- A statement for a table with some definitions, as it is written. -/
def creatingForm (table : Text) (definitions : List (List Token)) : List Token :=
  .ofWord "CREATE" :: .ofWord "TABLE" :: .ofName table :: .ofMark '(' ::
    (separated definitions ++ [.ofMark ')'])

/-- The statements that drop the index of a key, as they are written. -/
def droppingForms (table name : Text) : List (List Token) :=
  [alterTokens table [.ofWord "DROP", .ofWord "INDEX", .ofName name],
    alterTokens table [.ofWord "DROP", .ofWord "KEY", .ofName name],
    [.ofWord "DROP", .ofWord "INDEX", .ofName name, .ofWord "ON", .ofName table]]

theorem spelled_uniqueTokens (unique : Bool) : ∀ t ∈ uniqueTokens unique, t.Spelled := by
  cases unique with
  | false => simp [uniqueTokens]
  | true => exact List.forall_mem_singleton.2 (.word (by decide))

theorem spelled_clauseTokens (hword : word ∈ indexWords) :
    ∀ t ∈ clauseTokens word unique key, t.Spelled := by
  have hcapitalized : ∀ w ∈ indexWords, Token.isCapitalized w = true := by decide
  unfold clauseTokens
  simp only [List.forall_mem_cons, List.forall_mem_append]
  exact ⟨spelled_uniqueTokens unique, .word (hcapitalized word hword), key.spelled⟩

theorem spelled_alterTokens {action : List Token} (h : ∀ t ∈ action, t.Spelled) :
    ∀ t ∈ alterTokens table action, t.Spelled := by
  unfold alterTokens
  simp only [List.forall_mem_cons]
  exact ⟨.word (by decide), .word (by decide), .name table, h⟩

theorem spelled_addingForms {form : List Token} (h : form ∈ addingForms table unique key) :
    ∀ t ∈ form, t.Spelled := by
  simp only [addingForms, List.mem_cons, List.not_mem_nil, or_false] at h
  rcases h with rfl | rfl | rfl
  · exact spelled_alterTokens (List.forall_mem_cons.2
      ⟨.word (by decide), spelled_clauseTokens (by decide)⟩)
  · exact spelled_alterTokens (List.forall_mem_cons.2
      ⟨.word (by decide), spelled_clauseTokens (by decide)⟩)
  · simp only [List.forall_mem_cons, List.forall_mem_append]
    exact ⟨.word (by decide), spelled_uniqueTokens unique, .word (by decide), .name key.name,
      WrittenKey.spelled_kindTokens _, .word (by decide), .name table, spelled_columnTokens _,
      WrittenKey.spelled_kindTokens _⟩

theorem spelled_droppingForms {name : Text} {form : List Token}
    (h : form ∈ droppingForms table name) : ∀ t ∈ form, t.Spelled := by
  have haction : ∀ {word : Text}, (Token.ofWord word).Spelled →
      ∀ t ∈ [Token.ofWord "DROP", .ofWord word, .ofName name], t.Spelled := by
    intro word hword
    simp only [List.forall_mem_cons]
    exact ⟨.word (by decide), hword, .name name, List.forall_mem_nil _⟩
  simp only [droppingForms, List.mem_cons, List.not_mem_nil, or_false] at h
  rcases h with rfl | rfl | rfl
  · exact spelled_alterTokens (haction (.word (by decide)))
  · exact spelled_alterTokens (haction (.word (by decide)))
  · simp only [List.forall_mem_cons]
    exact ⟨.word (by decide), .word (by decide), .name name, .word (by decide), .name table,
      List.forall_mem_nil _⟩

theorem marksUnique (h : ts.map Token.unplaced = uniqueTokens unique) : MarksUnique unique ts := by
  cases unique with
  | false =>
      obtain rfl := List.map_eq_nil_iff.1 h
      exact .plain
  | true =>
      obtain ⟨word, more, rfl, hword, hmore⟩ := List.map_eq_cons_iff.1 h
      obtain rfl := List.map_eq_nil_iff.1 hmore
      exact .unique (Token.isWord_of_ofWord hword (by decide))

theorem definesIndex (hkey : key.Writes index) (hword : word ∈ indexWords)
    (h : ts.map Token.unplaced = clauseTokens word index.unique key) : DefinesIndex index ts := by
  have hupper : ∀ w ∈ indexWords, Text.upper w ∈ ["KEY".toList, "INDEX"] := by decide
  obtain ⟨mark, more, rfl, hmark, hmore⟩ := List.map_eq_append_iff.1 h
  obtain ⟨introducing, body, rfl, hintroducing, hbody⟩ := List.map_eq_cons_iff.1 hmore
  exact .clause (marksUnique hmark) (Token.isWord_of_ofWord hintroducing (hupper word hword))
    (hkey.namesKey hbody)

/-- What alters a table begins alike. -/
theorem exists_of_alterTokens {action : List Token}
    (h : ts.map Token.unplaced = alterTokens table action) :
    ∃ alter kind name more, ts = alter :: kind :: name :: more ∧ alter.isWord ["ALTER"] = true ∧
      kind.isWord ["TABLE"] = true ∧ name.Quotes table ∧ more.map Token.unplaced = action := by
  obtain ⟨alter, more, rfl, halter, hmore⟩ := List.map_eq_cons_iff.1 h
  obtain ⟨kind, more, rfl, hkind, hmore⟩ := List.map_eq_cons_iff.1 hmore
  obtain ⟨name, more, rfl, hname, hmore⟩ := List.map_eq_cons_iff.1 hmore
  exact ⟨alter, kind, name, more, rfl, Token.isWord_of_ofWord halter (by decide),
    Token.isWord_of_ofWord hkind (by decide), .of_unplaced hname, hmore⟩

theorem addsIndex_altered (hkey : key.Writes index) (hword : word ∈ indexWords)
    (h : ts.map Token.unplaced =
      alterTokens index.table (.ofWord "ADD" :: clauseTokens word index.unique key)) :
    AddsIndex index ts := by
  obtain ⟨alter, kind, name, more, rfl, halter, hkind, hname, hmore⟩ := exists_of_alterTokens h
  obtain ⟨add, clause, rfl, hadd, hclause⟩ := List.map_eq_cons_iff.1 hmore
  exact .altered halter hkind hname (Token.isWord_of_ofWord hadd (by decide))
    (definesIndex hkey hword hclause)

theorem addsIndex_created (hkey : key.Writes index)
    (h : ts.map Token.unplaced = .ofWord "CREATE" :: (uniqueTokens index.unique ++
      .ofWord "INDEX" :: .ofName key.name :: (WrittenKey.kindTokens key.kindBefore ++
        .ofWord "ON" :: .ofName index.table ::
          (columnTokens (key.first :: key.more) ++ WrittenKey.kindTokens key.kindBehind)))) :
    AddsIndex index ts := by
  rw [hkey.name] at h
  obtain ⟨create, more, rfl, hcreate, hmore⟩ := List.map_eq_cons_iff.1 h
  obtain ⟨mark, more, rfl, hmark, hmore⟩ := List.map_eq_append_iff.1 hmore
  obtain ⟨introducing, more, rfl, hintroducing, hmore⟩ := List.map_eq_cons_iff.1 hmore
  obtain ⟨named, more, rfl, hnamed, hmore⟩ := List.map_eq_cons_iff.1 hmore
  obtain ⟨before, more, rfl, hbefore, hmore⟩ := List.map_eq_append_iff.1 hmore
  obtain ⟨on, more, rfl, hon, hmore⟩ := List.map_eq_cons_iff.1 hmore
  obtain ⟨target, more, rfl, htarget, hmore⟩ := List.map_eq_cons_iff.1 hmore
  obtain ⟨list, behind, rfl, hlist, hbehind⟩ := List.map_eq_append_iff.1 hmore
  have hcolumns : IsKeyList index.columns list := hkey.columns ▸ isKeyList hlist
  exact .created (Token.isWord_of_ofWord hcreate (by decide)) (marksUnique hmark)
    (Token.isWord_of_ofWord hintroducing (by decide)) (.of_unplaced hnamed)
    (WrittenKey.isUsing hbefore) (Token.isWord_of_ofWord hon (by decide))
    (.of_unplaced htarget) hcolumns (WrittenKey.isUsing hbehind)

/-- The written statements that add an index are such statements. -/
theorem addsIndex_written {form : List Token} (hkey : key.Writes index)
    (h : form ∈ addingForms index.table index.unique key) :
    ∃ tokens, tokenize (written form) = .ok tokens ∧
      AddsIndex index (Cursor.withoutSemicolon (significant tokens)) := by
  have hspelled := spelled_addingForms h
  obtain ⟨tokens, htokens, hform⟩ := tokenize_written hspelled
  refine ⟨tokens, htokens, ?_⟩
  rw [Cursor.withoutSemicolon_of_spelled hspelled hform]
  simp only [addingForms, List.mem_cons, List.not_mem_nil, or_false] at h
  rcases h with rfl | rfl | rfl
  · exact addsIndex_altered hkey (by decide) hform
  · exact addsIndex_altered hkey (by decide) hform
  · exact addsIndex_created hkey hform

theorem createsTable {definitions : List (List Token)} (hne : definitions ≠ [])
    (hundivided : ∀ d ∈ definitions, ∀ ts : List Token, ts.map Token.unplaced = d →
      Undivided "," ts)
    (h : ts.map Token.unplaced = creatingForm table definitions) :
    ∃ parts : List (List Token), parts.map (·.map Token.unplaced) = definitions ∧
      CreatesTable table parts ts := by
  obtain ⟨definition, definitions, rfl⟩ := List.exists_cons_of_ne_nil hne
  obtain ⟨create, more, rfl, hcreate, hmore⟩ := List.map_eq_cons_iff.1 h
  obtain ⟨kind, more, rfl, hkind, hmore⟩ := List.map_eq_cons_iff.1 hmore
  obtain ⟨name, more, rfl, hname, hmore⟩ := List.map_eq_cons_iff.1 hmore
  obtain ⟨opening, more, rfl, hopen, hmore⟩ := List.map_eq_cons_iff.1 hmore
  obtain ⟨body, last, rfl, hbody, hlast⟩ := List.map_eq_append_iff.1 hmore
  obtain ⟨closing, more, rfl, hclose, hmore⟩ := List.map_eq_cons_iff.1 hlast
  obtain rfl := List.map_eq_nil_iff.1 hmore
  obtain ⟨hbalanced, hsplit⟩ := splitTopLevel_separated hundivided hbody
  have hgroup : IsGroup body (opening :: body ++ [closing]) :=
    ⟨opening, closing, rfl, Token.isPunct_of_unplaced hopen _, Token.isPunct_of_unplaced hclose _,
      hbalanced⟩
  have hcreates := CreatesTable.created (Token.isWord_of_ofWord hcreate (by decide))
    (Token.isWord_of_ofWord hkind (by decide)) (.of_unplaced hname) hgroup rfl
    (List.forall_mem_nil _)
  exact ⟨_, hsplit, by simpa using hcreates⟩

/-- A written statement for a table is such a statement, and its definitions are those written. -/
theorem createsTable_written {definitions : List (List Token)} (hne : definitions ≠ [])
    (hspelled : ∀ d ∈ definitions, ∀ t ∈ d, t.Spelled)
    (hundivided : ∀ d ∈ definitions, ∀ ts : List Token, ts.map Token.unplaced = d →
      Undivided "," ts) :
    ∃ tokens, ∃ parts : List (List Token),
      tokenize (written (creatingForm table definitions)) = .ok tokens ∧
      parts.map (·.map Token.unplaced) = definitions ∧
      CreatesTable table parts (Cursor.withoutSemicolon (significant tokens)) := by
  have hform : ∀ t ∈ creatingForm table definitions, t.Spelled := by
    unfold creatingForm
    simp only [List.forall_mem_cons, List.forall_mem_append]
    exact ⟨.word (by decide), .word (by decide), .name table, .mark (by decide),
      spelled_separated hspelled, .mark (by decide), List.forall_mem_nil _⟩
  obtain ⟨tokens, htokens, hwritten⟩ := tokenize_written hform
  obtain ⟨parts, hparts, hcreates⟩ := createsTable hne hundivided hwritten
  refine ⟨tokens, parts, htokens, hparts, ?_⟩
  rwa [Cursor.withoutSemicolon_of_spelled hform hwritten]

theorem dropsIndex_altered {name : Text} (hword : Text.upper word ∈ ["INDEX".toList, "KEY"])
    (h : ts.map Token.unplaced =
      alterTokens table [.ofWord "DROP", .ofWord word, .ofName name]) :
    DropsIndex table name ts := by
  obtain ⟨alter, kind, target, more, rfl, halter, hkind, htarget, hmore⟩ := exists_of_alterTokens h
  obtain ⟨drop, more, rfl, hdrop, hmore⟩ := List.map_eq_cons_iff.1 hmore
  obtain ⟨introducing, more, rfl, hintroducing, hmore⟩ := List.map_eq_cons_iff.1 hmore
  obtain ⟨named, more, rfl, hnamed, hmore⟩ := List.map_eq_cons_iff.1 hmore
  obtain rfl := List.map_eq_nil_iff.1 hmore
  exact .altered halter hkind htarget (Token.isWord_of_ofWord hdrop (by decide))
    (Token.isWord_of_ofWord hintroducing hword) (.of_unplaced hnamed)

theorem dropsIndex_dropped {name : Text} (h : ts.map Token.unplaced =
      [.ofWord "DROP", .ofWord "INDEX", .ofName name, .ofWord "ON", .ofName table]) :
    DropsIndex table name ts := by
  obtain ⟨drop, more, rfl, hdrop, hmore⟩ := List.map_eq_cons_iff.1 h
  obtain ⟨introducing, more, rfl, hintroducing, hmore⟩ := List.map_eq_cons_iff.1 hmore
  obtain ⟨named, more, rfl, hnamed, hmore⟩ := List.map_eq_cons_iff.1 hmore
  obtain ⟨on, more, rfl, hon, hmore⟩ := List.map_eq_cons_iff.1 hmore
  obtain ⟨target, more, rfl, htarget, hmore⟩ := List.map_eq_cons_iff.1 hmore
  obtain rfl := List.map_eq_nil_iff.1 hmore
  exact .dropped (Token.isWord_of_ofWord hdrop (by decide))
    (Token.isWord_of_ofWord hintroducing (by decide)) (.of_unplaced hnamed)
    (Token.isWord_of_ofWord hon (by decide)) (.of_unplaced htarget)

/-- The written statements that drop an index are such statements. -/
theorem dropsIndex_written {name : Text} {form : List Token}
    (h : form ∈ droppingForms table name) :
    ∃ tokens, tokenize (written form) = .ok tokens ∧
      DropsIndex table name (Cursor.withoutSemicolon (significant tokens)) := by
  have hspelled := spelled_droppingForms h
  obtain ⟨tokens, htokens, hform⟩ := tokenize_written hspelled
  refine ⟨tokens, htokens, ?_⟩
  rw [Cursor.withoutSemicolon_of_spelled hspelled hform]
  simp only [droppingForms, List.mem_cons, List.not_mem_nil, or_false] at h
  rcases h with rfl | rfl | rfl
  · exact dropsIndex_altered (by decide) hform
  · exact dropsIndex_altered (by decide) hform
  · exact dropsIndex_dropped hform

end Forms

end Restate

import Restate.Proofs.Restatement
import Restate.Proofs.Schema.AddedEdits

/-!
# The text of an added column

Main statement: a statement that adds a column becomes the text of its parts, and SQLite reads every
token of it in its place just if no part runs into the next and no comment begins with a hash
(`AddedColumn.restate_readsAs_iff`).
-/

namespace Restate

open Sqlite (lexemes together)

namespace AddedColumn

variable {sql : Text}

/-- A statement of this kind is restated from its tokens. -/
theorem restateAddColumn_of_restate {settings : Settings} {tablePrefix : Text} {r : Restatement}
    (hok : (restate settings tablePrefix sql).outcome = .ok r)
    (hkind : r.kind = some .alterAddColumn) :
    ∃ tokens out, tokenize sql = .ok tokens ∧ r.queries = [Query.plain out] ∧
      (restateAddColumn settings.types sql (significant tokens)).outcome = .ok out := by
  obtain ⟨tokens, kind, queries, htokens, -, hqueries, rfl⟩ := restate_ok_iff.1 hok
  obtain rfl : kind = .alterAddColumn := by simpa using hkind
  obtain ⟨texts, htexts, hmap⟩ := Report.bind_ok.1 hqueries
  obtain rfl := Report.pure_ok.1 hmap
  obtain ⟨out, hout, hsingle⟩ := Report.bind_ok.1 (mapError_ok.1 htexts)
  obtain rfl := Report.pure_ok.1 hsingle
  exact ⟨tokens, out, htokens, rfl, hout⟩

/-- Whether the built-in settings restate a statement that adds a column, and its parts pass a
test. -/
def passesBuiltIn (sql : Text) (test : List Part → Bool) : Bool :=
  passes (fun settings =>
    passes (fun r => r.kind == some .alterAddColumn) (restate settings [] sql).outcome
      && passes (fun tokens =>
        passes (fun word => test (parts word tokens))
          (mapType settings.types (typeName ((body tokens).drop (headLength (body tokens))))))
        (tokenize sql))
    (Settings.load .builtIn)

theorem exists_of_passesBuiltIn {test : List Part → Bool} (h : passesBuiltIn sql test = true) :
    ∃ settings r tokens word, Settings.load .builtIn = .ok settings ∧
      (restate settings [] sql).outcome = .ok r ∧ r.kind = some .alterAddColumn ∧
      tokenize sql = .ok tokens ∧
      mapType settings.types (typeName ((body tokens).drop (headLength (body tokens)))) = .ok word ∧
      test (parts word tokens) = true := by
  obtain ⟨settings, hload, h⟩ := exists_of_passes h
  obtain ⟨hrun, hparts⟩ := Bool.and_eq_true_iff.1 h
  obtain ⟨r, hok, hkind⟩ := exists_of_passes hrun
  obtain ⟨tokens, htokens, hparts⟩ := exists_of_passes hparts
  obtain ⟨word, hword, htest⟩ := exists_of_passes hparts
  exact ⟨settings, r, tokens, word, hload, hok, by simpa using hkind, htokens, hword, htest⟩

/-- The statement that adds a column becomes one query, made of what stays of its tokens and the
type's word. SQLite reads all of that in its place just if no part of it runs into the next and no
comment in it begins with a hash. -/
theorem restate_readsAs_iff {settings : Settings} {tablePrefix : Text} {r : Restatement}
    (hok : (restate settings tablePrefix sql).outcome = .ok r)
    (hkind : r.kind = some .alterAddColumn) :
    ∃ tokens word, tokenize sql = .ok tokens ∧
      mapType settings.types (typeName ((body tokens).drop (headLength (body tokens)))) = .ok word ∧
      r.queries = [Query.plain (written (parts word tokens))] ∧
      (ReadsAs (written (parts word tokens)) (parts word tokens) ↔
        Separate (parts word tokens) ∧ ∀ p ∈ parts word tokens, p.isHashComment = false) := by
  obtain ⟨tokens, out, htokens, hqueries, hout⟩ := restateAddColumn_of_restate hok hkind
  obtain ⟨word, hword, rfl⟩ := restateAddColumn_ok htokens hout
  obtain ⟨-, -, hread⟩ := tiles_of_tokenize htokens
  refine ⟨tokens, word, htokens, hword, hqueries, readsAs_written_iff ?_⟩
  intro t ht
  obtain ⟨hmem, htrivia⟩ := mem_of_gap_mem_weave ht
  exact ⟨hread t hmem, htrivia⟩

/-- With blanks between its tokens a statement is read as it should be. -/
theorem restate_readsAs_of_blanks :
    ∃ settings r tokens word, Settings.load .builtIn = .ok settings ∧
      (restate settings [] "ALTER TABLE t ADD c int(1) NULL").outcome = .ok r ∧
      r.kind = some .alterAddColumn ∧
      tokenize "ALTER TABLE t ADD c int(1) NULL" = .ok tokens ∧
      r.queries = [Query.plain (written (parts word tokens))] ∧
      ReadsAs (written (parts word tokens)) (parts word tokens) := by
  obtain ⟨settings, r, tokens, word, hload, hok, hkind, htokens, hword, htest⟩ :=
    exists_of_passesBuiltIn (show passesBuiltIn "ALTER TABLE t ADD c int(1) NULL"
      (fun parts => decide (Separate parts) && parts.all (!·.isHashComment)) = true by
        decide +kernel)
  obtain ⟨tokens', word', htokens', hword', hqueries, hreads⟩ := restate_readsAs_iff hok hkind
  obtain rfl := Except.ok.inj (htokens'.symm.trans htokens)
  obtain rfl := Except.ok.inj (hword'.symm.trans hword)
  refine ⟨settings, r, tokens', word', hload, hok, hkind, htokens, hqueries, hreads.2 ?_⟩
  simpa using htest

/-- Without a blank behind the type's arguments the type's word takes the next word with it. -/
theorem restate_not_readsAs :
    ∃ settings r tokens word, Settings.load .builtIn = .ok settings ∧
      (restate settings [] "ALTER TABLE t ADD c int(11)NOT NULL").outcome = .ok r ∧
      r.kind = some .alterAddColumn ∧
      tokenize "ALTER TABLE t ADD c int(11)NOT NULL" = .ok tokens ∧
      mapType settings.types (typeName ((body tokens).drop (headLength (body tokens)))) = .ok word ∧
      r.queries = [Query.plain "ALTER TABLE t ADD c integerNOT NULL"] ∧
      ¬ ReadsAs "ALTER TABLE t ADD c integerNOT NULL" (parts word tokens) := by
  obtain ⟨settings, r, tokens, word, hload, hok, hkind, htokens, hword, htest⟩ :=
    exists_of_passesBuiltIn (show passesBuiltIn "ALTER TABLE t ADD c int(11)NOT NULL"
      (fun parts => written parts == "ALTER TABLE t ADD c integerNOT NULL".toList
        && lexemes together (written parts) != parts.flatMap fun p => lexemes together p.text)
        = true by decide +kernel)
  obtain ⟨tokens', out, htokens', hqueries, hout⟩ := restateAddColumn_of_restate hok hkind
  obtain rfl := Except.ok.inj (htokens'.symm.trans htokens)
  obtain ⟨word', hword', rfl⟩ := restateAddColumn_ok htokens hout
  obtain rfl := Except.ok.inj (hword'.symm.trans hword)
  obtain ⟨hwritten, hdiffers⟩ := Bool.and_eq_true_iff.1 htest
  rw [eq_of_beq hwritten] at hqueries hdiffers
  refine ⟨settings, r, tokens', word', hload, hok, hkind, htokens, hword, hqueries, ?_⟩
  intro h
  rw [h.inPlace] at hdiffers
  simp at hdiffers

end AddedColumn

end Restate

import Restate.Proofs.Rows.Nesting
import Restate.Proofs.Sqlite.Words

/-!
# Rewritten calls among their neighbours

Each call that is rewritten has a place in the text of the statement, with something written before
and behind it (`Rows.emission`). A call that is replaced by a word has lost the parentheses that kept
it apart from its neighbours, and arguments that are stripped may have lost the newline that ends a
comment. Main statement: SQLite reads a rewritten call as a sequence of lexemes of its own just if
neither happens (`restate_calls_iff`).
-/

namespace Restate

open Text Sqlite

/-- The word with which a rule has a call begin. -/
def FunctionRule.word : FunctionRule → Text
  | .strftime _ => "STRFTIME"
  | .replace word => word.inserted
  | .rename name => name.inserted

/-- The format that a rule puts before the arguments of a call, with its comma. -/
def FunctionRule.given : FunctionRule → Text
  | .strftime format => quoteString format.inserted ++ [',']
  | .replace _ | .rename _ => []

/-- What a rule writes before the arguments of a call. -/
def FunctionRule.opening (rule : FunctionRule) : Text :=
  rule.word ++ '(' :: rule.given

/-- The lexemes that are meant for the format and its comma. -/
def FunctionRule.givenLexemes : FunctionRule → List Sqlite.Lexeme
  | .strftime format => [⟨.closed '\x27', quoteString format.inserted⟩, .ofMark ',']
  | .replace _ | .rename _ => []

/-- The lexemes that are meant for a call, given those of its arguments: the name, the parenthesis,
the format and a comma if there is one, the arguments, and the parenthesis that closes; or the word
in its place. -/
def FunctionRule.lexemes (rule : FunctionRule) (args : List Sqlite.Lexeme) :
    List Sqlite.Lexeme :=
  if rule.discards then [.word rule.word]
  else .word rule.word :: .ofMark '(' :: (rule.givenLexemes ++ (args ++ [.ofMark ')']))

/-- The rule writes a format, or a word. -/
def FunctionRule.isPlain : FunctionRule → Bool
  | .strftime (.str _) => true
  | .replace (.str word) => !word.isEmpty && word.all isNameChar
  | .rename name => !name.inserted.isEmpty && name.inserted.all isNameChar
  | .strftime _ | .replace _ => false

namespace Rows

/-- A call that was rewritten, with its arguments as they are written and with what is written
before and behind it. -/
structure CallSite where
  before : Text
  rule : FunctionRule
  args : Text
  after : Text

namespace CallSite

/-- The text of the call. -/
def call (site : CallSite) : Text :=
  site.rule.restated site.args

/-- The text in which the call is written. -/
def text (site : CallSite) : Text :=
  site.before ++ (site.call ++ site.after)

/-- The call in a longer text. -/
def within (front back : Text) (site : CallSite) : CallSite :=
  { site with before := front ++ site.before, after := site.after ++ back }

/-- The call in a text that has lost its outer blanks. -/
def stripped (site : CallSite) : CallSite :=
  { site with before := site.before.dropWhile isBlank, after := site.after.rdropWhile isBlank }

/-- SQLite reads the call as the lexemes that are meant, and neither what is before it nor what is
behind it differently than without it. -/
def SelfContained (site : CallSite) : Prop :=
  lexemes together site.call = site.rule.lexemes (lexemes together site.args) ∧
    lexemes together site.text =
      lexemes together site.before ++
        (lexemes together site.call ++ lexemes together site.after)

/-- What is before the call ends neither in a word nor inside a quoted span or a comment. Nor do its
arguments end inside one, or if the call is a lone word, no word follows at once. -/
def StandsApart (site : CallSite) : Prop :=
  endsInside site.before = false ∧ endsInWord site.before = false ∧
    if site.rule.discards then beginsWithWord site.after = false
    else endsInside site.args = false

instance (site : CallSite) : Decidable site.StandsApart :=
  inferInstanceAs (Decidable (_ ∧ _ ∧ ite _ _ _))

end CallSite

/-- A text, and the calls that were rewritten in it. -/
structure Emission where
  text : Text
  calls : List CallSite

namespace Emission

def ofToken (t : Token) : Emission :=
  ⟨plainPiece t, []⟩

def append (front back : Emission) : Emission where
  text := front.text ++ back.text
  calls := front.calls.map (.within [] back.text) ++ back.calls.map (.within front.text [])

def join (emissions : List Emission) : Emission :=
  emissions.foldr append ⟨[], []⟩

def strip (e : Emission) : Emission :=
  ⟨Text.strip e.text, e.calls.map CallSite.stripped⟩

/-- A call with the given arguments. Calls in arguments that are lost are lost with them. -/
def ofCall (rule : FunctionRule) (args : Emission) : Emission where
  text := rule.restated args.text
  calls := ⟨[], rule, args.text, []⟩ ::
    if rule.discards then [] else args.calls.map (.within rule.opening ")")

end Emission

/-- What a statement on rows is made into, given the significant token before it: a text for each
token that is no call, and one for each call with the calls in its arguments. -/
def emissions (functions : Fields FunctionRule) (previous : Option Token) (tokens : List Token) :
    List Emission :=
  assemble Emission.ofToken (fun rule args => [Emission.ofCall rule (Emission.join args).strip])
    functions previous tokens

/-- The text of a statement on rows, with all calls that are rewritten in it. -/
def emission (functions : Fields FunctionRule) (tokens : List Token) : Emission :=
  .join (emissions functions none tokens)

end Rows

section Rule

variable {rule : FunctionRule}

theorem FunctionRule.holdsText_of_isPlain (h : rule.isPlain = true) : rule.holdsText = true := by
  unfold FunctionRule.isPlain at h
  split at h
  · rfl
  · rfl
  · rfl
  · simp at h
  · simp at h

theorem FunctionRule.restated_of_kept (h : rule.discards = false) (args : Text) :
    rule.restated args = rule.opening ++ (args ++ [')']) := by
  have hassoc : ∀ name given : Text,
      name ++ given ++ [','] ++ args ++ [')'] = name ++ (given ++ [',']) ++ (args ++ [')']) := by
    intro name given
    simp
  cases rule with
  | strftime format => exact hassoc "STRFTIME(" (quoteString format.inserted)
  | replace word => cases h
  | rename name => exact List.append_assoc (name.inserted ++ ['(']) args [')']

theorem FunctionRule.restated_of_discards (h : rule.discards = true) (args : Text) :
    rule.restated args = rule.word := by
  cases rule with
  | replace word => rfl
  | strftime format => cases h
  | rename name => cases h

theorem FunctionRule.word_of_isPlain (h : rule.isPlain = true) :
    rule.word ≠ [] ∧ rule.word.all isNameChar = true := by
  cases rule with
  | strftime format =>
      change "STRFTIME".toList ≠ [] ∧ "STRFTIME".toList.all isNameChar = true
      decide
  | replace replacement =>
      cases replacement with
      | str word =>
          change word ≠ [] ∧ word.all isNameChar = true
          simpa [isPlain] using h
      | _ => cases h
  | rename name =>
      change name.inserted ≠ [] ∧ name.inserted.all isNameChar = true
      simpa [isPlain] using h

/-- A word and the mark behind it are read by themselves. -/
theorem lexemes_word_mark {name : Text} {c : Char} (hne : name ≠ [])
    (hname : name.all isNameChar = true) (hc : isMark c = true) (s : Text) :
    lexemes together (name ++ c :: s) = .word name :: .ofMark c :: lexemes together s := by
  rw [(lexemes_alone_iff (standsAlone_of_isMark hc)).2 (endsInside_word hname),
    lexemes_word hne hname]
  rfl

theorem FunctionRule.lexemes_given (rule : FunctionRule) (s : Text) :
    Sqlite.lexemes together (rule.given ++ s) = rule.givenLexemes ++ Sqlite.lexemes together s := by
  cases rule with
  | strftime format =>
      have hquoted := lexemes_quoteString format.inserted
      have hclosed : endsInside (quoteString format.inserted) = false := by
        rw [endsInside, hquoted]
        rfl
      change Sqlite.lexemes together (quoteString format.inserted ++ [','] ++ s) = _
      rw [List.append_assoc, List.singleton_append, (lexemes_alone_iff (by decide)).2 hclosed,
        hquoted]
      rfl
  | replace | rename => rfl

/-- What a rule writes before the arguments is read as it is meant, whatever follows. -/
theorem FunctionRule.lexemes_opening (h : rule.isPlain = true) (s : Text) :
    Sqlite.lexemes together (rule.opening ++ s) =
      .word rule.word :: .ofMark '(' :: (rule.givenLexemes ++ Sqlite.lexemes together s) := by
  obtain ⟨hne, hword⟩ := word_of_isPlain h
  rw [opening, List.append_assoc, List.cons_append, lexemes_word_mark hne hword (by decide),
    lexemes_given]

/-- A call begins with a word, and ends in a word or a parenthesis. -/
theorem FunctionRule.solid_restated (h : rule.isPlain = true) (args : Text) :
    (∃ c s, rule.restated args = c :: s ∧ isNameChar c = true) ∧ EndsSolid (rule.restated args) := by
  obtain ⟨hne, hword⟩ := word_of_isPlain h
  obtain ⟨c, s, hcons⟩ := List.exists_cons_of_ne_nil hne
  have hc : isNameChar c = true := List.all_eq_true.1 hword c (by simp [hcons])
  cases hdiscards : rule.discards with
  | true =>
      rw [restated_of_discards hdiscards]
      exact ⟨⟨c, s, hcons, hc⟩, endsSolid_of_forall fun d hd =>
        not_isBlank_of_isNameChar (List.all_eq_true.1 hword d hd)⟩
  | false =>
      rw [restated_of_kept hdiscards]
      refine ⟨⟨c, _, by rw [opening, hcons]; rfl, hc⟩, ?_⟩
      rw [← List.append_assoc]
      exact EndsSolid.append (endsSolid_of_getLast? rfl (by decide)) (by simp) _

end Rule

namespace Rows

namespace CallSite

variable {site : CallSite}

/-- A call with its arguments is read as it is meant just if these do not end inside a quoted span or
a comment. -/
theorem lexemes_call_iff (hplain : site.rule.isPlain = true) (hkept : site.rule.discards = false) :
    lexemes together site.call = site.rule.lexemes (lexemes together site.args) ↔
      endsInside site.args = false := by
  have hmark : standsAlone ')' = true := by decide
  rw [call, FunctionRule.restated_of_kept hkept, FunctionRule.lexemes_opening hplain,
    FunctionRule.lexemes, hkept, ← lexemes_alone_iff (s := []) hmark]
  simp [lexemes]

/-- A lone word is read as itself. -/
theorem lexemes_call_of_discards (hplain : site.rule.isPlain = true)
    (hdiscards : site.rule.discards = true) :
    lexemes together site.call = site.rule.lexemes (lexemes together site.args) := by
  obtain ⟨hne, hword⟩ := FunctionRule.word_of_isPlain hplain
  rw [call, FunctionRule.restated_of_discards hdiscards, lexemes_word hne hword,
    FunctionRule.lexemes, if_pos hdiscards]

/-- A rewritten call is self-contained just if it stands apart from its neighbours. -/
theorem selfContained_iff (hplain : site.rule.isPlain = true) :
    site.SelfContained ↔ site.StandsApart := by
  obtain ⟨⟨c, s, hcall, hc⟩, -⟩ := FunctionRule.solid_restated hplain site.args
  have hbegins : beginsWithWord (site.call ++ site.after) = true := by
    rw [call, hcall]
    exact hc
  rw [SelfContained, StandsApart, text, lexemes_between_iff, runsInto_word_iff hbegins, and_assoc]
  cases hdiscards : site.rule.discards with
  | true =>
      obtain ⟨hne, hword⟩ := FunctionRule.word_of_isPlain hplain
      have hafter : runsInto together site.call site.after = false ↔
          beginsWithWord site.after = false := by
        rw [call, FunctionRule.restated_of_discards hdiscards, runsInto_of_word hne hword]
      simp [lexemes_call_of_discards hplain hdiscards, hafter]
  | false =>
      have hread := lexemes_call_iff hplain hdiscards
      -- a parenthesis that is read at the end of the call takes nothing behind it
      have hafter : endsInside site.args = false →
          runsInto together site.call site.after = false := by
        intro hargs
        have hend : lexemes together site.call = (.word site.rule.word :: .ofMark '(' ::
            (site.rule.givenLexemes ++ lexemes together site.args)) ++ [.ofMark ')'] := by
          rw [hread.2 hargs, FunctionRule.lexemes, hdiscards]
          simp
        exact runsInto_of_alone (by decide) hend _
      rw [hread]
      simp only [Bool.false_eq_true, if_false]
      constructor
      · rintro ⟨hargs, hinside, hword, -⟩
        exact ⟨hinside, hword, hargs⟩
      · rintro ⟨hinside, hword, hargs⟩
        exact ⟨hargs, hinside, hword, hafter hargs⟩

end CallSite

section Emission

variable {functions : Fields FunctionRule} {previous : Option Token} {tokens : List Token}

/-- The text of what a text and the calls in it are made of is theirs. -/
theorem text_join_cons (e : Emission) (es : List Emission) :
    (Emission.join (e :: es)).text = e.text ++ (Emission.join es).text :=
  rfl

theorem written_parts_eq {rule : FunctionRule} (hrule : rule.holdsText = true)
    (args : List Part) : written (rule.parts args) = rule.restated (written args) :=
  written_parts_of_apply (FunctionRule.apply_eq hrule (written args))

/-- The text with its calls is that of the parts. -/
theorem text_emissions
    (hrules : ∀ name rule, functions.get? name = some rule → rule.isPlain = true) :
    (Emission.join (emissions functions previous tokens)).text =
      written (assemble Token.part (fun rule args => rule.parts (trim args)) functions previous
        tokens) := by
  unfold emissions
  fun_induction assemble Token.part (fun rule args => rule.parts (trim args)) functions previous
      tokens with
  | case1 => rw [assemble_nil]; rfl
  | case2 previous t rest hcall ih =>
      simp only [dite_eq_ite] at ih
      rw [assemble_token hcall, text_join_cons, ih]
      rfl
  | case3 previous t rest rule body hcall hclose => rw [assemble_open hcall hclose]; rfl
  | case4 previous t rest rule body hcall n hclose ihargs ihmore =>
      have hrule := FunctionRule.holdsText_of_isPlain (hrules _ _ (call?_some hcall).1)
      rw [assemble_call hcall hclose, List.singleton_append, text_join_cons, ihmore,
        written_append, written_parts_eq hrule, written_trim, ← ihargs]
      rfl

/-- The calls are those of the text, and their rules are plain. -/
def Emission.Sound (e : Emission) : Prop :=
  ∀ site ∈ e.calls, site.text = e.text ∧ site.rule.isPlain = true

theorem Emission.sound_ofToken (t : Token) : (Emission.ofToken t).Sound := by
  simp [Emission.Sound, Emission.ofToken]

theorem CallSite.text_within (front back : Text) (site : CallSite) :
    (site.within front back).text = front ++ site.text ++ back := by
  simp [CallSite.text, CallSite.within, CallSite.call]

/-- What stands around a text that neither begins nor ends in a blank is stripped at its outer
end. -/
theorem strip_around {before s after : Text} (hbegin : ∀ c ∈ s.head?, isBlank c = false)
    (hne : s ≠ []) (hend : EndsSolid s) :
    Text.strip (before ++ (s ++ after)) =
      before.dropWhile isBlank ++ (s ++ after.rdropWhile isBlank) := by
  have hfront : (before ++ (s ++ after)).dropWhile isBlank =
      before.dropWhile isBlank ++ (s ++ after) := by
    obtain ⟨c, s, rfl⟩ := List.exists_cons_of_ne_nil hne
    have hc : isBlank c = false := hbegin c rfl
    rw [List.dropWhile_append]
    split
    · next h => simp [hc, List.isEmpty_iff.1 h]
    · rfl
  have hback : ∀ front : Text, (front ++ (s ++ after)).rdropWhile isBlank =
      front ++ (s ++ after.rdropWhile isBlank) := by
    intro front
    rw [← List.append_assoc, ← List.append_assoc]
    cases hblank : after.all isBlank with
    | true =>
        have hnil : after.rdropWhile isBlank = [] := by simpa using hblank
        rw [rdropWhile_append_blank hblank, (hend.append hne front).rdropWhile_eq, hnil,
          List.append_nil]
    | false => exact rdropWhile_append_other hblank _
  unfold Text.strip
  rw [hfront]
  exact hback _

theorem CallSite.text_stripped {site : CallSite} (h : site.rule.isPlain = true) :
    site.stripped.text = Text.strip site.text := by
  obtain ⟨⟨c, s, hcall, hc⟩, hend⟩ := FunctionRule.solid_restated h site.args
  have hbegin : ∀ d ∈ site.call.head?, isBlank d = false := by
    rw [CallSite.call, hcall]
    intro d hd
    obtain rfl : c = d := Option.some.inj hd
    exact not_isBlank_of_isNameChar hc
  have hne : site.call ≠ [] := by rw [CallSite.call, hcall]; simp
  exact (strip_around hbegin hne hend).symm

theorem Emission.Sound.append {front back : Emission} (hfront : front.Sound) (hback : back.Sound) :
    (front.append back).Sound := by
  intro site hsite
  rcases List.mem_append.1 hsite with hsite | hsite
  · obtain ⟨inner, hinner, rfl⟩ := List.mem_map.1 hsite
    obtain ⟨htext, hplain⟩ := hfront inner hinner
    exact ⟨by rw [CallSite.text_within, htext]; rfl, hplain⟩
  · obtain ⟨inner, hinner, rfl⟩ := List.mem_map.1 hsite
    obtain ⟨htext, hplain⟩ := hback inner hinner
    exact ⟨by rw [CallSite.text_within, htext, List.append_nil]; rfl, hplain⟩

theorem Emission.sound_join {es : List Emission} (h : ∀ e ∈ es, e.Sound) :
    (Emission.join es).Sound := by
  induction es with
  | nil => simp [Emission.Sound, Emission.join]
  | cons e es ih =>
      obtain ⟨he, hes⟩ := List.forall_mem_cons.1 h
      exact he.append (ih hes)

theorem Emission.Sound.strip {e : Emission} (h : e.Sound) : e.strip.Sound := by
  intro site hsite
  obtain ⟨inner, hinner, rfl⟩ := List.mem_map.1 hsite
  obtain ⟨htext, hplain⟩ := h inner hinner
  exact ⟨by rw [CallSite.text_stripped hplain, htext]; rfl, hplain⟩

theorem Emission.Sound.ofCall {rule : FunctionRule} {args : Emission} (h : args.Sound)
    (hplain : rule.isPlain = true) : (Emission.ofCall rule args).Sound := by
  refine List.forall_mem_cons.2 ⟨⟨?_, hplain⟩, ?_⟩
  · simp [CallSite.text, CallSite.call, Emission.ofCall]
  · cases hdiscards : rule.discards with
    | true => simp
    | false =>
        intro site hsite
        obtain ⟨inner, hinner, rfl⟩ := List.mem_map.1 hsite
        obtain ⟨htext, hinnerPlain⟩ := h inner hinner
        refine ⟨?_, hinnerPlain⟩
        rw [CallSite.text_within, htext, List.append_assoc]
        exact (FunctionRule.restated_of_kept hdiscards args.text).symm

theorem sound_emissions
    (hrules : ∀ name rule, functions.get? name = some rule → rule.isPlain = true)
    (previous : Option Token) (tokens : List Token) :
    ∀ e ∈ emissions functions previous tokens, e.Sound := by
  unfold emissions
  fun_induction assemble Emission.ofToken
      (fun rule args => [Emission.ofCall rule (Emission.join args).strip]) functions previous
      tokens with
  | case1 => simp
  | case2 previous t rest hcall ih =>
      exact List.forall_mem_cons.2 ⟨Emission.sound_ofToken t, ih⟩
  | case3 => simp
  | case4 previous t rest rule body hcall n hclose ihargs ihmore =>
      have hplain := hrules _ _ (call?_some hcall).1
      exact List.forall_mem_cons.2 ⟨(Emission.sound_join ihargs).strip.ofCall hplain, ihmore⟩

end Emission

/-- The rules of the built-in settings write formats and words. -/
theorem builtIn_plain {settings : Settings} (h : Settings.load .builtIn = .ok settings) :
    ∀ name rule, settings.functions.get? name = some rule → rule.isPlain = true := by
  have htest : passes (fun settings => settings.functions.all (·.2.isPlain))
      (Settings.load .builtIn) = true := by
    decide +kernel
  rw [h, passes, List.all_eq_true] at htest
  intro name rule hget
  obtain ⟨before, after, hsplit⟩ := List.lookup_eq_some_iff.1 hget
  exact htest (name, rule) (by simp [hsplit])

end Rows

section Statement

variable {settings : Settings} {tablePrefix sql : Text} {r : Restatement} {kind : StatementKind}

/-- A statement on rows becomes one query, in whose text each rewritten call has its place. -/
theorem restate_emission (hload : Settings.load .builtIn = .ok settings)
    (hrestate : (restate settings tablePrefix sql).outcome = .ok r) (hkind : r.kind = some kind)
    (hrow : kind ∈ StatementKind.onRows) :
    ∃ tokens bound e, tokenize sql = .ok tokens ∧
      Parameter.extract settings.placeholderStem.inserted tokens = .ok bound ∧
      e = Rows.emission settings.functions (orIgnore kind bound.tokens) ∧
      r.queries = [⟨.sql e.text, bound.params⟩] ∧ e.Sound := by
  obtain ⟨tokens, bound, text, htokens, hbound, htext, hqueries⟩ :=
    restate_rows_ok hrestate hkind hrow
  have hrules := Rows.builtIn_plain hload
  refine ⟨tokens, bound, _, htokens, hbound, rfl, ?_,
    Rows.Emission.sound_join (Rows.sound_emissions hrules none _)⟩
  rw [hqueries, Rows.emission, Rows.text_emissions hrules, ← Rows.written_partsOf htext]
  rfl

/-- A statement on rows becomes one query, in whose text each rewritten call has its place. With the
built-in settings SQLite reads such a call as a sequence of lexemes of its own, neither running into
its neighbours nor taking anything of them, just if what is before it ends neither in a word nor
inside a quoted span or a comment, its arguments do not end inside one either, and no word follows
at once where the call has been replaced by one. -/
theorem restate_calls_iff (hload : Settings.load .builtIn = .ok settings)
    (hrestate : (restate settings tablePrefix sql).outcome = .ok r) (hkind : r.kind = some kind)
    (hrow : kind ∈ StatementKind.onRows) :
    ∃ tokens bound e, tokenize sql = .ok tokens ∧
      Parameter.extract settings.placeholderStem.inserted tokens = .ok bound ∧
      e = Rows.emission settings.functions (orIgnore kind bound.tokens) ∧
      r.queries = [⟨.sql e.text, bound.params⟩] ∧
      ∀ site ∈ e.calls, site.text = e.text ∧ (site.SelfContained ↔ site.StandsApart) := by
  obtain ⟨tokens, bound, e, htokens, hbound, he, hqueries, hsound⟩ :=
    restate_emission hload hrestate hkind hrow
  refine ⟨tokens, bound, e, htokens, hbound, he, hqueries, ?_⟩
  intro site hsite
  obtain ⟨htext, hplain⟩ := hsound site hsite
  exact ⟨htext, Rows.CallSite.selfContained_iff hplain⟩

end Statement

/-- Whether the built-in settings restate a query, and what it is made into passes a test. -/
def passesEmission (sql : Text) (test : Rows.Emission → Bool) : Bool :=
  passes (fun settings =>
    passes (fun r => r.kind == some .select) (restate settings [] sql).outcome &&
    passes (fun tokens => passes
        (fun bound => test (Rows.emission settings.functions (orIgnore .select bound.tokens)))
        (Parameter.extract settings.placeholderStem.inserted tokens))
      (tokenize sql))
    (Settings.load .builtIn)

theorem exists_of_passesEmission {sql : Text} {test : Rows.Emission → Bool}
    (h : passesEmission sql test = true) :
    ∃ settings r, Settings.load .builtIn = .ok settings ∧
      (restate settings [] sql).outcome = .ok r ∧ r.kind = some .select ∧
      ∀ tokens bound, tokenize sql = .ok tokens →
        Parameter.extract settings.placeholderStem.inserted tokens = .ok bound →
        test (Rows.emission settings.functions (orIgnore .select bound.tokens)) = true := by
  obtain ⟨settings, hload, h⟩ := exists_of_passes h
  obtain ⟨hrestate, htest⟩ := Bool.and_eq_true_iff.1 h
  obtain ⟨r, hrestate, hkind⟩ := exists_of_passes hrestate
  refine ⟨settings, r, hload, hrestate, eq_of_beq hkind, ?_⟩
  intro tokens bound htokens hbound
  rwa [htokens, passes, hbound, passes] at htest

/-- Calls within a call, and a word in place of one between blanks, are read by themselves. -/
theorem restate_calls_of_blanks :
    ∃ settings r tokens bound e, Settings.load .builtIn = .ok settings ∧
      (restate settings [] "SELECT ucase(YEAR(a /* b */)), NOW () AS c FROM t").outcome = .ok r ∧
      r.kind = some .select ∧
      tokenize "SELECT ucase(YEAR(a /* b */)), NOW () AS c FROM t" = .ok tokens ∧
      Parameter.extract settings.placeholderStem.inserted tokens = .ok bound ∧
      e = Rows.emission settings.functions (orIgnore .select bound.tokens) ∧
      r.queries = [⟨.sql e.text, bound.params⟩] ∧
      e.text = "SELECT UPPER(STRFTIME('%Y',a /* b */)), CURRENT_TIMESTAMP AS c FROM t" ∧
      e.calls.length = 3 ∧ ∀ site ∈ e.calls, site.SelfContained := by
  obtain ⟨settings, r, hload, hrestate, hkind, htest⟩ := exists_of_passesEmission (show
    passesEmission "SELECT ucase(YEAR(a /* b */)), NOW () AS c FROM t" (fun e => decide
      (e.text = "SELECT UPPER(STRFTIME('%Y',a /* b */)), CURRENT_TIMESTAMP AS c FROM t" ∧
        e.calls.length = 3 ∧ ∀ site ∈ e.calls, site.StandsApart)) = true by decide +kernel)
  obtain ⟨tokens, bound, e, htokens, hbound, he, hqueries, hcalls⟩ :=
    restate_calls_iff hload hrestate hkind (by decide)
  have htest := htest tokens bound htokens hbound
  rw [← he, decide_eq_true_iff] at htest
  obtain ⟨htext, hlength, hapart⟩ := htest
  exact ⟨settings, r, tokens, bound, e, hload, hrestate, hkind, htokens, hbound, he, hqueries, htext,
    hlength, fun site hsite => (hcalls site hsite).2.2 (hapart site hsite)⟩

/-- A word that touches the parenthesis of a replaced call is read as the end of the word in its
place. -/
theorem restate_call_runs_on :
    ∃ settings r tokens bound e site, Settings.load .builtIn = .ok settings ∧
      (restate settings [] "SELECT NOW()a FROM t").outcome = .ok r ∧ r.kind = some .select ∧
      tokenize "SELECT NOW()a FROM t" = .ok tokens ∧
      Parameter.extract settings.placeholderStem.inserted tokens = .ok bound ∧
      e = Rows.emission settings.functions (orIgnore .select bound.tokens) ∧
      r.queries = [⟨.sql e.text, bound.params⟩] ∧ e.calls = [site] ∧
      .word "CURRENT_TIMESTAMPa" ∈ Sqlite.lexemes Sqlite.together e.text ∧
      ¬ site.SelfContained := by
  obtain ⟨settings, r, hload, hrestate, hkind, htest⟩ := exists_of_passesEmission (show
    passesEmission "SELECT NOW()a FROM t" (fun e => decide
      (e.calls.length = 1 ∧ (∀ site ∈ e.calls, ¬ site.StandsApart) ∧
        Sqlite.Lexeme.word "CURRENT_TIMESTAMPa" ∈ Sqlite.lexemes Sqlite.together e.text)) = true by
      decide +kernel)
  obtain ⟨tokens, bound, e, htokens, hbound, he, hqueries, hsound⟩ :=
    restate_emission hload hrestate hkind (by decide)
  have htest := htest tokens bound htokens hbound
  rw [← he, decide_eq_true_iff] at htest
  obtain ⟨hlength, hapart, hword⟩ := htest
  obtain ⟨site, hcalls⟩ := List.length_eq_one_iff.1 hlength
  have hsite : site ∈ e.calls := by simp [hcalls]
  exact ⟨settings, r, tokens, bound, e, site, hload, hrestate, hkind, htokens, hbound, he, hqueries,
    hcalls, hword, fun h =>
      hapart site hsite ((Rows.CallSite.selfContained_iff (hsound site hsite).2).1 h)⟩

end Restate

import Restate.Proofs.Lexing.Silence
import Restate.Proofs.Rows.Binding
import Restate.Proofs.Rows.Places
import Restate.Proofs.Text.Blank

/-!
# The parts of a restated statement

The text of a restated statement with a mark on each of its parts: which are placeholders, which are
comments, and which is code. Taken together the parts are the text (`written_partsOf`); their
placeholders are those of the tokens that are left when a replacement has discarded the arguments of
its call (`sound_partsOf`).
-/

namespace Restate

open Text Sqlite

namespace Rows

/-- What a part of a restated statement is meant as. -/
inductive Role where
  | placeholder
  | comment
  | code
  deriving DecidableEq, Repr

structure Part where
  role : Role
  text : Text
  deriving DecidableEq, Repr

/-- The parts one after another. -/
def written (parts : List Part) : Text :=
  parts.flatMap Part.text

/-- The name in a placeholder. -/
def Part.name? (p : Part) : Option Text :=
  if p.role = .placeholder then some p.text.tail else none

/-- The names of the placeholders among the parts. -/
def names (parts : List Part) : List Text :=
  parts.filterMap Part.name?

/-- Without the blanks in front. -/
def trimStart : List Part → List Part
  | [] => []
  | p :: parts =>
    if p.text.all isBlank then trimStart parts
    else { p with text := p.text.dropWhile isBlank } :: parts

/-- Without the blanks at the end. -/
def trimEnd : List Part → List Part
  | [] => []
  | p :: parts =>
    if (written parts).all isBlank then [{ p with text := p.text.rdropWhile isBlank }]
    else p :: trimEnd parts

/-- Without the blanks at both ends. -/
def trim (parts : List Part) : List Part :=
  trimEnd (trimStart parts)

end Rows

/-- The part that a token becomes which is no call. -/
def Token.part (t : Token) : Rows.Part where
  role := if t.name?.isSome then .placeholder else if t.kind = .comment then .comment else .code
  text := plainPiece t

/-- The parts a call becomes, given those of its arguments. -/
def FunctionRule.parts (args : List Rows.Part) : FunctionRule → List Rows.Part
  | .strftime (.str format) =>
    ⟨.code, "STRFTIME(" ++ quoteString format ++ ","⟩ :: args ++ [⟨.code, ")"⟩]
  | .strftime _ => []
  | .replace (.str replacement) => [⟨.code, replacement⟩]
  | .replace _ => []
  | .rename name => ⟨.code, name.inserted ++ "("⟩ :: args ++ [⟨.code, ")"⟩]

/-- The rule puts something in the place of a call, and its arguments are lost. -/
def FunctionRule.discards : FunctionRule → Bool
  | .replace _ => true
  | _ => false

/-- What a rule puts around arguments, or in place of a call, is text and holds no placeholder. -/
def FunctionRule.isSilent : FunctionRule → Bool
  | .strftime (.str format) => decide (Silent ("STRFTIME(" ++ quoteString format ++ ","))
  | .strftime _ => false
  | .replace (.str replacement) => decide (Silent replacement)
  | .replace _ => false
  | .rename name => decide (Silent (name.inserted ++ "("))

namespace Rows

/-- What a statement is made into, given the significant token before it: what `plain` makes of each
token that is no call, and `call` of each call, whose arguments are made into something first. -/
def assemble {α : Type} (plain : Token → α) (call : FunctionRule → List α → List α)
    (functions : Fields FunctionRule) (previous : Option Token) : List Token → List α
  | [] => []
  | t :: rest =>
    match _h : call? functions previous t rest with
    | none =>
      plain t :: assemble plain call functions (if t.isTrivia then previous else some t) rest
    | some (rule, body) =>
      match closingFrom 1 body with
      | none => []
      | some n =>
        call rule (assemble plain call functions none (body.take n))
          ++ assemble plain call functions body[n]? (body.drop (n + 1))
termination_by tokens => tokens.length
decreasing_by
  · simp
  · have := length_call_lt _h
    simp only [List.length_take, List.length_cons]
    omega
  · have := length_call_lt _h
    simp only [List.length_drop, List.length_cons]
    omega

def partsOf (functions : Fields FunctionRule) : List Token → List Part :=
  assemble Token.part (fun rule args => rule.parts (trim args)) functions none

/-- The tokens that are left when each call that has a replacement has lost its arguments. -/
def remaining (functions : Fields FunctionRule) : List Token → List Token :=
  assemble id (fun rule args => if rule.discards then [] else args) functions none

section Assemble

variable {α : Type} {plain : Token → α} {call : FunctionRule → List α → List α}
  {functions : Fields FunctionRule} {previous : Option Token} {t : Token} {rest body : List Token}
  {rule : FunctionRule} {n : Nat}

theorem assemble_nil : assemble plain call functions previous [] = [] := by
  rw [assemble]

theorem assemble_token (hcall : call? functions previous t rest = none) :
    assemble plain call functions previous (t :: rest) =
      plain t :: assemble plain call functions (if t.isTrivia then previous else some t) rest := by
  rw [assemble]
  split
  · rfl
  · next hsome => simp [hcall] at hsome

theorem assemble_open (hcall : call? functions previous t rest = some (rule, body))
    (hclose : closingFrom 1 body = none) :
    assemble plain call functions previous (t :: rest) = [] := by
  rw [assemble]
  split
  · next hnone => simp [hcall] at hnone
  · next hsome =>
      rw [hcall] at hsome
      cases hsome
      rw [hclose]

theorem assemble_call (hcall : call? functions previous t rest = some (rule, body))
    (hclose : closingFrom 1 body = some n) :
    assemble plain call functions previous (t :: rest) =
      call rule (assemble plain call functions none (body.take n))
        ++ assemble plain call functions body[n]? (body.drop (n + 1)) := by
  rw [assemble]
  split
  · next hnone => simp [hcall] at hnone
  · next hsome =>
      rw [hcall] at hsome
      cases hsome
      rw [hclose]

end Assemble

section Trim

variable {parts : List Part} {p : Part}

@[simp]
theorem written_cons (p : Part) (parts : List Part) :
    written (p :: parts) = p.text ++ written parts :=
  List.flatMap_cons

@[simp]
theorem written_append (parts more : List Part) :
    written (parts ++ more) = written parts ++ written more :=
  List.flatMap_append

theorem all_isBlank_of_mem (h : (written parts).all isBlank = true) (hp : p ∈ parts) :
    p.text.all isBlank = true := by
  rw [List.all_eq_true] at h ⊢
  intro c hc
  exact h c (List.mem_flatMap.2 ⟨p, hp, hc⟩)

theorem written_trimStart (parts : List Part) :
    written (trimStart parts) = (written parts).dropWhile isBlank := by
  induction parts with
  | nil => rfl
  | cons p parts ih =>
      rw [written_cons, trimStart]
      split
      · next hblank =>
          rw [List.dropWhile_append_of_pos (by simpa using hblank), ih]
      · next hblank =>
          rw [List.dropWhile_append, if_neg, written_cons]
          simpa using hblank

theorem written_trimEnd (parts : List Part) :
    written (trimEnd parts) = (written parts).rdropWhile isBlank := by
  induction parts with
  | nil => rfl
  | cons p parts ih =>
      rw [written_cons, trimEnd]
      split
      · next hblank =>
          rw [rdropWhile_append_blank hblank]
          simp [written]
      · next hblank =>
          rw [rdropWhile_append_other (by simpa using hblank), written_cons, ih]

/-- Trimming the parts is stripping the text. -/
theorem written_trim (parts : List Part) : written (trim parts) = strip (written parts) := by
  unfold trim strip
  rw [written_trimEnd, written_trimStart]
  rfl

section Forall

variable {P : Part → Prop}
  (hfront : ∀ p, P p → P { p with text := p.text.dropWhile isBlank })
  (hback : ∀ p, P p → P { p with text := p.text.rdropWhile isBlank })

include hfront in
theorem forall_mem_trimStart (h : ∀ p ∈ parts, P p) : ∀ p ∈ trimStart parts, P p := by
  induction parts with
  | nil => exact h
  | cons p parts ih =>
      obtain ⟨hp, hparts⟩ := List.forall_mem_cons.1 h
      rw [trimStart]
      split
      · exact ih hparts
      · exact List.forall_mem_cons.2 ⟨hfront p hp, hparts⟩

include hback in
theorem forall_mem_trimEnd (h : ∀ p ∈ parts, P p) : ∀ p ∈ trimEnd parts, P p := by
  induction parts with
  | nil => exact h
  | cons p parts ih =>
      obtain ⟨hp, hparts⟩ := List.forall_mem_cons.1 h
      rw [trimEnd]
      split
      · exact List.forall_mem_cons.2 ⟨hback p hp, by simp⟩
      · exact List.forall_mem_cons.2 ⟨hp, ih hparts⟩

include hfront hback in
/-- What holds of the parts, and of a part that loses its outer blanks, holds of the trimmed
parts. -/
theorem forall_mem_trim (h : ∀ p ∈ parts, P p) : ∀ p ∈ trim parts, P p :=
  forall_mem_trimEnd hback (forall_mem_trimStart hfront h)

end Forall

end Trim

section Text

variable {functions : Fields FunctionRule} {previous : Option Token} {tokens : List Token}
  {pieces : List Piece} {text : Text}

theorem joinPieces_nil_ok (h : joinPieces [] = .ok text) : text = [] := by
  cases h
  rfl

theorem joinPieces_cons_ok {piece : Piece} (h : joinPieces (piece :: pieces) = .ok text) :
    ∃ head more, piece = some head ∧ joinPieces pieces = .ok more ∧ text = head ++ more := by
  unfold joinPieces at h ⊢
  rw [List.mapM_cons] at h
  cases piece with
  | none => simp at h
  | some head =>
      cases hmore : pieces.mapM id with
      | none => simp [hmore] at h
      | some texts =>
          refine ⟨head, texts.flatten, rfl, rfl, ?_⟩
          simpa [hmore] using h.symm

theorem written_parts_of_apply {rule : FunctionRule} {args : List Part}
    (h : rule.apply (written args) = .ok (some text)) : written (rule.parts args) = text := by
  unfold FunctionRule.apply at h
  split at h
  · cases h
    simp [FunctionRule.parts, written]
  · simp at h
  · cases h
    simp [FunctionRule.parts, written]
  · simp at h
  · cases h
    simp [FunctionRule.parts, written]

theorem written_assemble (h : restatePieces functions previous tokens = .ok pieces)
    (hjoin : joinPieces pieces = .ok text) :
    written (assemble Token.part (fun rule args => rule.parts (trim args)) functions previous
      tokens) = text := by
  fun_induction restatePieces functions previous tokens generalizing pieces text with
  | case1 =>
      cases h
      rw [assemble_nil, joinPieces_nil_ok hjoin]
      rfl
  | case2 previous t rest hcall ih =>
      obtain ⟨more, hmore, h⟩ := except_bind_ok.1 h
      cases h
      obtain ⟨head, tail, hhead, htail, rfl⟩ := joinPieces_cons_ok hjoin
      cases hhead
      simp only [dite_eq_ite] at ih hmore
      rw [assemble_token hcall, written_cons, ih hmore htail]
      rfl
  | case3 => simp at h
  | case4 previous t rest rule body hcall n hclose ihargs ihmore =>
      obtain ⟨args, hargs, h⟩ := except_bind_ok.1 h
      obtain ⟨argsText, hargsText, h⟩ := except_bind_ok.1 h
      obtain ⟨piece, happly, h⟩ := except_bind_ok.1 h
      obtain ⟨more, hmore, h⟩ := except_bind_ok.1 h
      cases h
      obtain ⟨head, tail, rfl, htail, rfl⟩ := joinPieces_cons_ok hjoin
      -- the rule is applied to the stripped text of the arguments, which is that of their parts
      rw [← ihargs hargs hargsText, ← written_trim] at happly
      rw [assemble_call hcall hclose, written_append, ihmore hmore htail,
        written_parts_of_apply happly]

/-- The text of a restated statement is that of its parts. -/
theorem written_partsOf (h : restateTokens functions tokens = .ok text) :
    written (partsOf functions tokens) = text := by
  obtain ⟨pieces, hpieces, hjoin⟩ := except_bind_ok.1 h
  exact written_assemble hpieces hjoin

end Text

section Sound

/-- The part is spelled as what it is meant as; a comment may begin with a hash. -/
def Part.Sound (p : Part) : Prop :=
  match p.role with
  | .placeholder => ∃ name, p.text = ':' :: name ∧ name ≠ [] ∧ ∀ c ∈ name, isWordChar c = true
  | .comment => p.text.head? = some '#' ∨ Silent p.text
  | .code => Silent p.text

variable {functions : Fields FunctionRule} {previous : Option Token} {tokens : List Token}
  {parts : List Part} {p : Part}

/-- Blanks are not taken from a placeholder. -/
theorem Part.Sound.trimmed (h : p.Sound) (hrole : p.role = .placeholder) :
    p.text.dropWhile isBlank = p.text ∧ p.text.rdropWhile isBlank = p.text ∧
      p.text.all isBlank = false := by
  obtain ⟨role, text⟩ := p
  obtain rfl : role = .placeholder := hrole
  obtain ⟨name, rfl, hne, hword⟩ := h
  have hcolon : isBlank ':' = false := by decide
  refine ⟨?_, ?_, ?_⟩
  · rw [List.dropWhile_cons, if_neg (by simp [hcolon])]
  · rw [List.rdropWhile_eq_self_iff]
    intro hl
    have hmem : (':' :: name).getLast hl ∈ name := by
      rw [List.getLast_cons hne]
      exact List.getLast_mem hne
    simp [isBlank_of_isWordChar (hword _ hmem)]
  · simp [hcolon]

theorem Part.Sound.dropWhile (h : p.Sound) :
    Part.Sound { p with text := p.text.dropWhile isBlank } := by
  obtain ⟨role, text⟩ := p
  have hhash : isBlank '#' = false := by decide
  cases role with
  | placeholder =>
      rw [(h.trimmed rfl).1]
      exact h
  | comment =>
      rcases h with hhead | hsilent
      · left
        obtain ⟨s, rfl⟩ := List.head?_eq_some_iff.1 hhead
        simp [hhash]
      · exact .inr hsilent.dropWhile
  | code => exact Silent.dropWhile h

theorem Part.Sound.rdropWhile (h : p.Sound) :
    Part.Sound { p with text := p.text.rdropWhile isBlank } := by
  obtain ⟨role, text⟩ := p
  have hhash : isBlank '#' = false := by decide
  cases role with
  | placeholder =>
      rw [(h.trimmed rfl).2.1]
      exact h
  | comment =>
      rcases h with hhead | hsilent
      · left
        obtain ⟨s, rfl⟩ := List.head?_eq_some_iff.1 hhead
        rw [rdropWhile_cons_other hhash]
        rfl
      · exact .inr hsilent.rdropWhile
  | code => exact Silent.rdropWhile h

theorem Part.name?_eq_none (hrole : p.role ≠ .placeholder) : p.name? = none := by
  simp [Part.name?, hrole]

theorem Part.Sound.name?_dropWhile (h : p.Sound) :
    Part.name? { p with text := p.text.dropWhile isBlank } = p.name? := by
  by_cases hrole : p.role = .placeholder
  · rw [(h.trimmed hrole).1]
  · simp [Part.name?, hrole]

theorem Part.Sound.name?_rdropWhile (h : p.Sound) :
    Part.name? { p with text := p.text.rdropWhile isBlank } = p.name? := by
  by_cases hrole : p.role = .placeholder
  · rw [(h.trimmed hrole).2.1]
  · simp [Part.name?, hrole]

/-- A part of blanks is no placeholder. -/
theorem Part.Sound.name?_blank (h : p.Sound) (hblank : p.text.all isBlank = true) :
    p.name? = none := by
  apply Part.name?_eq_none
  intro hrole
  rw [(h.trimmed hrole).2.2] at hblank
  simp at hblank

theorem names_trimStart (h : ∀ p ∈ parts, p.Sound) : names (trimStart parts) = names parts := by
  induction parts with
  | nil => rfl
  | cons p parts ih =>
      obtain ⟨hp, hparts⟩ := List.forall_mem_cons.1 h
      rw [trimStart]
      split
      · next hblank => rw [ih hparts, names, names, List.filterMap_cons, hp.name?_blank hblank]
      · rw [names, names, List.filterMap_cons, List.filterMap_cons, hp.name?_dropWhile]

theorem names_trimEnd (h : ∀ p ∈ parts, p.Sound) : names (trimEnd parts) = names parts := by
  induction parts with
  | nil => rfl
  | cons p parts ih =>
      obtain ⟨hp, hparts⟩ := List.forall_mem_cons.1 h
      rw [trimEnd]
      split
      · next hblank =>
          -- a placeholder is not blank, so none is among the parts that go
          have hnames : names parts = [] := by
            apply List.filterMap_eq_nil_iff.2
            intro q hq
            exact (hparts q hq).name?_blank (all_isBlank_of_mem hblank hq)
          unfold names at hnames ⊢
          rw [List.filterMap_cons, List.filterMap_cons, hp.name?_rdropWhile, hnames]
          rfl
      · have hnames := ih hparts
        unfold names at hnames ⊢
        rw [List.filterMap_cons, List.filterMap_cons, hnames]

theorem sound_trim (h : ∀ p ∈ parts, p.Sound) :
    (∀ p ∈ trim parts, p.Sound) ∧ names (trim parts) = names parts := by
  have hstart := forall_mem_trimStart (fun _ => Part.Sound.dropWhile) h
  constructor
  · exact forall_mem_trimEnd (fun _ => Part.Sound.rdropWhile) hstart
  · exact (names_trimEnd hstart).trans (names_trimStart h)

/-- What a rule adds to the arguments of a call holds no placeholder. -/
theorem sound_parts {rule : FunctionRule} {args : List Part} (hrule : rule.isSilent = true)
    (h : ∀ p ∈ args, p.Sound) :
    (∀ p ∈ rule.parts args, p.Sound) ∧
      names (rule.parts args) = if rule.discards then [] else names args := by
  have hclose : Part.Sound ⟨.code, ")"⟩ := by
    change Silent ")"
    decide
  have haround : ∀ {head : Text}, Silent head →
      (∀ p ∈ ⟨.code, head⟩ :: args ++ [⟨.code, ")"⟩], p.Sound) ∧
        names (⟨.code, head⟩ :: args ++ [⟨.code, ")"⟩]) = names args := by
    intro head hhead
    refine ⟨?_, by simp [names, Part.name?]⟩
    intro p hp
    rcases List.mem_append.1 hp with hp | hp
    · rcases List.mem_cons.1 hp with rfl | hp
      · exact hhead
      · exact h p hp
    · rw [List.mem_singleton.1 hp]
      exact hclose
  unfold FunctionRule.isSilent at hrule
  split at hrule
  · exact haround (of_decide_eq_true hrule)
  · simp at hrule
  · have hsilent := of_decide_eq_true hrule
    refine ⟨?_, rfl⟩
    intro p hp
    rw [List.mem_singleton.1 hp]
    exact hsilent
  · simp at hrule
  · exact haround (of_decide_eq_true hrule)

theorem call?_some {t : Token} {rest body : List Token} {rule : FunctionRule}
    (h : call? functions previous t rest = some (rule, body)) :
    functions.get? t.upper = some rule ∧ body <:+ rest := by
  unfold call? at h
  split at h
  · obtain ⟨rule', hget, h⟩ := Option.bind_eq_some_iff.1 h
    obtain ⟨body', hbody, h⟩ := Option.map_eq_some_iff.1 h
    cases h
    refine ⟨hget, ?_⟩
    unfold callBody? at hbody
    split at hbody
    · next opening more heq =>
        split at hbody
        · cases hbody
          have hsuffix := List.dropWhile_suffix Token.isTrivia (l := rest)
          rw [heq] at hsuffix
          exact (List.suffix_cons opening _).trans hsuffix
        · simp at hbody
    · simp at hbody
  · simp at h

theorem name?_part (t : Token) : t.part.name? = t.name? := by
  cases hname : t.name? with
  | none =>
      apply Part.name?_eq_none
      unfold Token.part
      rw [hname]
      split
      · next h => simp at h
      · split
        · simp
        · simp
  | some name =>
      have hrole : t.part.role = .placeholder := by simp [Token.part, hname]
      unfold Token.name? at hname
      split at hname
      · next name' hkind htext =>
          have hpart : t.part.text = ':' :: name' := by simp [Token.part, plainPiece, hkind, htext]
          rw [Part.name?, if_pos hrole, hpart]
          exact hname
      · simp at hname

/-- What holds of the parts of single tokens holds of all parts, if no rule and no trimming breaks
it. -/
theorem forall_mem_assemble {P : Part → Prop}
    (hfront : ∀ p, P p → P { p with text := p.text.dropWhile isBlank })
    (hback : ∀ p, P p → P { p with text := p.text.rdropWhile isBlank })
    (hrules : ∀ name rule args, functions.get? name = some rule → (∀ p ∈ args, P p) →
      ∀ p ∈ rule.parts args, P p)
    (htokens : ∀ t ∈ tokens, P t.part) :
    ∀ p ∈ assemble Token.part (fun rule args => rule.parts (trim args)) functions previous tokens,
      P p := by
  fun_induction assemble Token.part (fun rule args => rule.parts (trim args)) functions previous
      tokens with
  | case1 => simp
  | case2 previous t rest hcall ih =>
      obtain ⟨ht, hrest⟩ := List.forall_mem_cons.1 htokens
      exact List.forall_mem_cons.2 ⟨ht, ih hrest⟩
  | case3 => simp
  | case4 previous t rest rule body hcall n hclose ihargs ihmore =>
      obtain ⟨hget, hsuffix⟩ := call?_some hcall
      have hbody : ∀ u ∈ body, P u.part := fun u hu =>
        htokens u (List.mem_cons_of_mem _ (hsuffix.subset hu))
      have hargs := ihargs fun u hu => hbody u (List.mem_of_mem_take hu)
      have hmore := ihmore fun u hu => hbody u (List.mem_of_mem_drop hu)
      have htrim := forall_mem_trim hfront hback hargs
      exact List.forall_mem_append.2 ⟨hrules _ _ _ hget htrim, hmore⟩

section Rules

variable (hrules : ∀ name rule, functions.get? name = some rule → rule.isSilent = true)

include hrules

theorem sound_assemble (htokens : ∀ t ∈ tokens, t.part.Sound) :
    ∀ p ∈ assemble Token.part (fun rule args => rule.parts (trim args)) functions previous tokens,
      p.Sound :=
  forall_mem_assemble (fun _ => Part.Sound.dropWhile) (fun _ => Part.Sound.rdropWhile)
    (fun _ _ _ hget hargs => (sound_parts (hrules _ _ hget) hargs).1) htokens

theorem names_assemble (htokens : ∀ t ∈ tokens, t.part.Sound) :
    names (assemble Token.part (fun rule args => rule.parts (trim args)) functions previous
        tokens) =
      (assemble id (fun rule args => if rule.discards then [] else args) functions previous
        tokens).filterMap Token.name? := by
  fun_induction assemble id (fun rule args => if rule.discards then [] else args) functions previous
      tokens with
  | case1 =>
      rw [assemble_nil]
      rfl
  | case2 previous t rest hcall ih =>
      have hnames := ih (List.forall_mem_cons.1 htokens).2
      simp only [dite_eq_ite] at hnames
      rw [assemble_token hcall]
      unfold names at hnames ⊢
      rw [List.filterMap_cons, List.filterMap_cons, name?_part, hnames]
      simp
  | case3 previous t rest rule body hcall hclose =>
      rw [assemble_open hcall hclose]
      rfl
  | case4 previous t rest rule body hcall n hclose ihargs ihmore =>
      obtain ⟨hget, hsuffix⟩ := call?_some hcall
      have hbody : ∀ u ∈ body, u.part.Sound := fun u hu =>
        htokens u (List.mem_cons_of_mem _ (hsuffix.subset hu))
      have htake : ∀ u ∈ body.take n, u.part.Sound := fun u hu => hbody u (List.mem_of_mem_take hu)
      have hmore := ihmore fun u hu => hbody u (List.mem_of_mem_drop hu)
      obtain ⟨htrim, htrimNames⟩ := sound_trim (sound_assemble hrules htake)
      obtain ⟨-, hparts⟩ := sound_parts (hrules _ _ hget) htrim
      rw [assemble_call hcall hclose]
      have hargs := ihargs htake
      unfold names at hargs hmore htrimNames hparts ⊢
      rw [List.filterMap_append, List.filterMap_append, hparts, htrimNames, hmore, hargs]
      cases rule.discards with
      | true => rfl
      | false => rfl

/-- The parts of a statement are sound if its tokens are, and they have the placeholders of the
tokens that are left. -/
theorem sound_partsOf (htokens : ∀ t ∈ tokens, t.part.Sound) :
    (∀ p ∈ partsOf functions tokens, p.Sound) ∧
      names (partsOf functions tokens) = (remaining functions tokens).filterMap Token.name? :=
  ⟨sound_assemble hrules htokens, names_assemble hrules htokens⟩

end Rules

end Sound

end Rows

end Restate

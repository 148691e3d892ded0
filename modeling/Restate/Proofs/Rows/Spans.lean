import Restate.Proofs.Lexing.Tiling
import Restate.Proofs.Rows.Binding

/-!
# The stretches of bound tokens

Binding changes the tokens of a statement in their places. What becomes of a token is told from the
tokens right before and right behind it: a literal takes the stretch of the word that introduces it,
unless both stay, and any other token is left alone. Main statement: `Parameter.extract_spans`.
-/

namespace Restate

/-- Tokens that follow one another from offset `start` up to offset `stop`, whatever their texts. -/
def Spans : Nat → List Token → Nat → Prop
  | start, [], stop => start = stop
  | start, t :: ts, stop => t.start = start ∧ t.start < t.stop ∧ Spans t.stop ts stop

namespace Spans

variable {start stop : Nat} {t : Token} {ts : List Token}

theorem stop_gt (h : Spans start ts stop) : ∀ t ∈ ts, start < t.stop := by
  induction ts generalizing start with
  | nil => simp
  | cons t ts ih =>
      obtain ⟨rfl, hlt, hrest⟩ := h
      refine List.forall_mem_cons.2 ⟨hlt, ?_⟩
      intro u hu
      exact Nat.lt_trans hlt (ih hrest u hu)

/-- Where a token stops no other does. -/
theorem filter_stop (h : Spans start ts stop) (ht : t ∈ ts) :
    (ts.filter fun u => u.stop == t.stop) = [t] := by
  induction ts generalizing start with
  | nil => simp at ht
  | cons u ts ih =>
      obtain ⟨-, -, hrest⟩ := h
      have hgt := hrest.stop_gt
      rcases List.mem_cons.1 ht with rfl | ht
      · have hnone : (ts.filter fun u => u.stop == t.stop) = [] := by
          apply List.filter_eq_nil_iff.2
          intro v hv
          have := hgt v hv
          simp only [beq_iff_eq]
          omega
        rw [List.filter_cons_of_pos (by simp), hnone]
      · have := hgt t ht
        rw [List.filter_cons_of_neg (by simp only [beq_iff_eq]; omega), ih hrest ht]

end Spans

/-- Each token with the token right before it and the token right behind it. -/
def neighbours (previous : Option Token) :
    List Token → List (Option Token × Token × Option Token)
  | [] => []
  | t :: ts => (previous, t, ts.head?) :: neighbours (some t) ts

namespace Parameter

open Introducer (before?)

/-- What may become of a token between its neighbours. -/
inductive Becomes (previous : Option Token) (t : Token) (next : Option Token) :
    List Token → Prop where
  /-- Neither a literal nor a word that introduces one. -/
  | kept : t.kind ≠ .string → next.bind (before? t) = none → Becomes previous t next [t]
  /-- The word before bytes. -/
  | bytesMarker : next.bind (before? t) = some .bytes →
      Becomes previous t next [{ t with text := ['X'] }]
  /-- Bytes, quoted anew. -/
  | bytes {marker : Token} : previous = some marker → before? marker t = some .bytes →
      Becomes previous t next [{ t with text := quoteString t.value }]
  /-- A word that introduces a literal and goes with it. -/
  | marker {introducer : Introducer} : next.bind (before? t) = some introducer →
      introducer ≠ .bytes → Becomes previous t next []
  /-- A number in bits, from its word on. -/
  | bits {marker : Token} {text : Text} : previous = some marker →
      before? marker t = some .bits → bitNumeral t.value = .ok text →
      Becomes previous t next [⟨.number, text, marker.start, t.stop⟩]
  /-- A literal behind the name of its character set, from that on. -/
  | charset {marker : Token} {name : Text} : previous = some marker →
      before? marker t = some .charset →
      Becomes previous t next [⟨.placeholder, ':' :: name, marker.start, t.stop⟩]
  /-- A literal that no word introduces. -/
  | literal {name : Text} : t.kind = .string → (previous.bind fun p => before? p t) = none →
      Becomes previous t next [⟨.placeholder, ':' :: name, t.start, t.stop⟩]

/-- The tokens become others one by one, each between its neighbours. -/
def BecomeEach (previous : Option Token) (tokens bound : List Token) : Prop :=
  ∃ pieces : List (List Token), bound = pieces.flatten ∧
    List.Forall₂ (fun (before, t, behind) piece => Becomes before t behind piece)
      (neighbours previous tokens) pieces

variable {naming : Naming} {n : Nat} {p : Option Token} {t : Token} {ts us piece : List Token}

theorem BecomeEach.nil : BecomeEach p [] [] :=
  ⟨[], rfl, .nil⟩

theorem BecomeEach.cons (hts : BecomeEach (some t) ts us) (ht : Becomes p t ts.head? piece) :
    BecomeEach p (t :: ts) (piece ++ us) := by
  obtain ⟨pieces, rfl, hpieces⟩ := hts
  exact ⟨piece :: pieces, rfl, .cons ht hpieces⟩

theorem BecomeEach.one {u : Token} (ht : Becomes p t ts.head? [u])
    (hts : BecomeEach (some t) ts us) : BecomeEach p (t :: ts) (u :: us) :=
  hts.cons ht

theorem BecomeEach.gone (ht : Becomes p t ts.head? []) (hts : BecomeEach (some t) ts us) :
    BecomeEach p (t :: ts) us :=
  hts.cons ht

theorem before?_of_string (h : t.kind = .string) (u : Token) : before? t u = none := by
  cases hbefore : before? t u with
  | none => rfl
  | some introducer =>
      exact absurd h (Introducer.not_string_of_before hbefore)

theorem becomeEach_of_bindFrom {bound : Bound} (h : bindFrom naming n ts = .ok bound)
    (hfirst : ∀ t ∈ ts.head?, (p.bind fun q => before? q t) = none) :
    BecomeEach p ts bound.tokens := by
  fun_induction bindFrom naming n ts generalizing p bound with
  | case1 n =>
      cases h
      exact .nil
  | case2 n t ts hstring ih =>
      obtain ⟨bound, hbound, rfl⟩ := bindLiteral_ok h
      exact .one (.literal hstring (hfirst t rfl))
        (ih _ hbound fun u _ => before?_of_string hstring u)
  | case3 n t hstring =>
      cases h
      exact .one (.kept hstring rfl) .nil
  | case4 n t hstring u rest hbefore ih =>
      obtain ⟨bound, hbound, rfl⟩ := except_map_ok.1 h
      have hu := Introducer.kind_of_before hbefore
      exact .one (.bytesMarker hbefore) <|
        .one (.bytes rfl hbefore)
          (ih hbound fun v _ => before?_of_string hu v)
  | case5 n t hstring u rest hbefore e hbits => simp at h
  | case6 n t hstring u rest hbefore text hbits ih =>
      obtain ⟨bound, hbound, rfl⟩ := except_map_ok.1 h
      have hu := Introducer.kind_of_before hbefore
      exact .gone (.marker hbefore (by decide)) <|
        .one (.bits rfl hbefore hbits)
          (ih hbound fun v _ => before?_of_string hu v)
  | case7 n t hstring u rest hbefore ih =>
      obtain ⟨bound, hbound, rfl⟩ := bindLiteral_ok h
      have hu := Introducer.kind_of_before hbefore
      exact .gone (.marker hbefore (by decide)) <|
        .one (.charset rfl hbefore)
          (ih _ hbound fun v _ => before?_of_string hu v)
  | case8 n t hstring u rest hbefore ih =>
      obtain ⟨bound, hbound, rfl⟩ := except_map_ok.1 h
      refine .one (.kept hstring hbefore) (ih hbound ?_)
      intro v hv
      obtain rfl : u = v := by simpa using hv
      exact hbefore

namespace Binds

variable {bound : Bound} {start stop : Nat}

/-- The tokens that are left take the stretch that the tokens of the statement take. -/
theorem spans (h : Binds naming n p ts bound) (htiles : Tiles start ts stop) :
    Spans start bound.tokens stop := by
  have hlt : ∀ t : Token, t.text ≠ [] → t.stop = t.start + t.text.length → t.start < t.stop := by
    intro t hne hstop
    have := List.length_pos_iff.2 hne
    omega
  induction h generalizing start with
  | nil => exact htiles
  | @keep n p t ts bound _ _ ih =>
      obtain ⟨hne, rfl, hstop, hrest⟩ := htiles
      exact ⟨rfl, hlt t hne hstop, ih hrest⟩
  | @literal n p t ts bound _ _ _ ih =>
      obtain ⟨hne, rfl, hstop, hrest⟩ := htiles
      exact ⟨rfl, hlt t hne hstop, ih hrest⟩
  | @charset n p t u ts bound _ _ _ ih =>
      obtain ⟨hne, rfl, hstop, hne', hstart, hstop', hrest⟩ := htiles
      have hmarker := hlt t hne hstop
      have hliteral := hlt u hne' (hstart ▸ hstop')
      exact ⟨rfl, show t.start < u.stop by omega, ih hrest⟩
  | @bytes n p t u ts bound _ _ _ ih =>
      obtain ⟨hne, rfl, hstop, hne', hstart, hstop', hrest⟩ := htiles
      exact ⟨rfl, hlt t hne hstop, hstart, hlt u hne' (hstart ▸ hstop'), ih hrest⟩
  | @bits n p t u ts bound text _ _ _ _ ih =>
      obtain ⟨hne, rfl, hstop, hne', hstart, hstop', hrest⟩ := htiles
      have hmarker := hlt t hne hstop
      have hliteral := hlt u hne' (hstart ▸ hstop')
      exact ⟨rfl, show t.start < u.stop by omega, ih hrest⟩

end Binds

/-- The literals that are left are bytes behind their words. -/
theorem Becomes.string {previous next : Option Token} (h : Becomes previous t next piece) :
    ∀ u ∈ piece, u.kind = .string → ∃ marker, previous = some marker ∧
      before? marker t = some .bytes ∧ u = { t with text := quoteString t.value } := by
  have hbare : ∀ {introducer : Introducer}, next.bind (before? t) = some introducer →
      t.kind ≠ .string := by
    intro introducer hnext hstring
    obtain ⟨u, -, hbefore⟩ := Option.bind_eq_some_iff.1 hnext
    simp [before?_of_string hstring] at hbefore
  cases h with
  | kept hkind _ => simp [hkind]
  | bytesMarker hnext => simp [hbare hnext]
  | bytes hprevious hbefore =>
      intro u hu _
      exact ⟨_, hprevious, hbefore, by simpa using hu⟩
  | marker => simp
  | bits | charset | literal => simp

theorem mem_neighbours {previous next : Option Token}
    (h : (previous, t, next) ∈ neighbours p ts) :
    previous = p ∧ ts.head? = some t ∨ ∃ marker, previous = some marker ∧ [marker, t] <:+: ts := by
  induction ts generalizing p with
  | nil => simp [neighbours] at h
  | cons u ts ih =>
      rcases List.mem_cons.1 h with h | h
      · cases h
        exact .inl ⟨rfl, rfl⟩
      · rcases ih h with ⟨rfl, hhead⟩ | ⟨marker, rfl, hsub⟩
        · obtain ⟨rest, rfl⟩ := List.head?_eq_some_iff.1 hhead
          exact .inr ⟨u, rfl, [], rest, rfl⟩
        · exact .inr ⟨marker, rfl, hsub.trans (List.suffix_cons u ts).isInfix⟩

/-- Of the literals of a statement those behind the word for bytes are left, quoted anew. -/
theorem BecomeEach.string {bound : List Token} (h : BecomeEach none ts bound) :
    ∀ u ∈ bound, u.kind = .string → ∃ marker literal, [marker, literal] <:+: ts ∧
      before? marker literal = some .bytes ∧
      u = { literal with text := quoteString literal.value } := by
  obtain ⟨pieces, rfl, hpieces⟩ := h
  intro u hu hstring
  obtain ⟨piece, hpiece, hu⟩ := List.mem_flatten.1 hu
  obtain ⟨i, hi, rfl⟩ := List.mem_iff_getElem.1 hpiece
  have hlength : i < (neighbours none ts).length := hpieces.length_eq ▸ hi
  obtain ⟨⟨previous, t, next⟩, hmem, hbecomes⟩ : ∃ x ∈ neighbours none ts,
      Becomes x.1 x.2.1 x.2.2 pieces[i] :=
    ⟨_, List.getElem_mem hlength, List.Forall₂.get hpieces hlength hi⟩
  obtain ⟨marker, rfl, hbefore, rfl⟩ := hbecomes.string u hu hstring
  rcases mem_neighbours hmem with ⟨hnone, -⟩ | ⟨_, hsome, hsub⟩
  · simp at hnone
  · obtain rfl := Option.some.inj hsome
    exact ⟨marker, t, hsub, hbefore, rfl⟩

/-- Once the literals of a statement are bound, its tokens still take the whole of it without gap or
overlap. Each has become what it may become between its neighbours, in order, and no literal is left
but bytes. -/
theorem extract_spans {sql stem : Text} {tokens : List Token} {bound : Bound}
    (htokens : tokenize sql = .ok tokens) (hbound : extract stem tokens = .ok bound) :
    Spans 0 bound.tokens sql.length ∧ BecomeEach none tokens bound.tokens ∧
      ∀ u ∈ bound.tokens, u.kind = .string → ∃ marker literal, [marker, literal] <:+: tokens ∧
        before? marker literal = some .bytes ∧
        u = { literal with text := quoteString literal.value } := by
  obtain ⟨-, htiles, -⟩ := tiles_of_tokenize htokens
  have heach : BecomeEach none tokens bound.tokens := becomeEach_of_bindFrom hbound (by simp)
  exact ⟨(binds_of_extract hbound).spans htiles, heach, heach.string⟩

/-- A word that does not touch its literal stays before the placeholder. -/
theorem extract_spans_introduced :
    ∃ tokens bound, tokenize "SELECT x'4''1', b'101', _utf8'a', n\"b\"'c', x 'd'" = .ok tokens ∧
      extract "p" tokens = .ok bound ∧
      sourceText bound.tokens = "SELECT X'4''1', 5, :p0, :p1:p2, x :p3" ∧
      Spans 0 bound.tokens 48 ∧ BecomeEach none tokens bound.tokens := by
  obtain ⟨tokens, htokens, h⟩ := exists_of_passes (show passes (fun tokens => passes (fun bound =>
      sourceText bound.tokens == "SELECT X'4''1', 5, :p0, :p1:p2, x :p3".toList)
      (extract "p" tokens)) (tokenize "SELECT x'4''1', b'101', _utf8'a', n\"b\"'c', x 'd'") =
    true by decide +kernel)
  obtain ⟨bound, hbound, htext⟩ := exists_of_passes h
  obtain ⟨hspans, heach, -⟩ := extract_spans htokens hbound
  rw [String.length_toList] at hspans
  exact ⟨tokens, bound, htokens, hbound, eq_of_beq htext, hspans, heach⟩

end Parameter

end Restate

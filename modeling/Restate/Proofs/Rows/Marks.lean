import Restate.Proofs.Rows.Parts
import Restate.Proofs.Sqlite.Marks

/-!
# Marks on the parts of a restated statement

Each part of a restated statement is meant to carry certain marks. Main statement: SQLite marks the
whole text as it is meant just if it does so on each part, given what is written before and behind
it (`marks_written_iff`).
-/

namespace Restate

open Text Sqlite

namespace Rows

/-- Each part is related to what is written behind it. -/
def Along (P : Part → Text → Prop) : List Part → Prop
  | [] => True
  | p :: parts => P p (written parts) ∧ Along P parts

instance Along.decidable (P : Part → Text → Prop) [∀ p s, Decidable (P p s)] :
    ∀ parts, Decidable (Along P parts)
  | [] => inferInstanceAs (Decidable True)
  | p :: parts =>
    have := Along.decidable P parts
    inferInstanceAs (Decidable (P p (written parts) ∧ Along P parts))

/-- Each part is related to what is written before it and to what is written behind it. -/
def Throughout (P : Text → Part → Text → Prop) (before : Text) : List Part → Prop
  | [] => True
  | p :: parts => P before p (written parts) ∧ Throughout P (before ++ p.text) parts

variable {find : Sqlite.Lexeme → Option Text} {mark : Part → List (Option Text)}
  {P : Text → Part → Text → Prop} {parts : List Part} {before : Text}

theorem marksIn_written_iff (hlength : ∀ p ∈ parts, (mark p).length = p.text.length)
    (hP : ∀ p ∈ parts, ∀ before after,
      marksIn find before p.text after = mark p ↔ P before p after) :
    marksIn find before (written parts) [] = parts.flatMap mark ↔ Throughout P before parts := by
  induction parts generalizing before with
  | nil => exact iff_of_true rfl trivial
  | cons p parts ih =>
      obtain ⟨hp, hlength⟩ := List.forall_mem_cons.1 hlength
      obtain ⟨hPp, hP⟩ := List.forall_mem_cons.1 hP
      -- both sides have one entry for each character, so they agree part by part
      have hentries : (marksIn find before p.text (written parts)).length = (mark p).length := by
        rw [length_marksIn, hp]
      rw [written_cons, marksIn_append, List.append_nil, List.flatMap_cons, Throughout, ← hPp,
        ← ih hlength hP]
      constructor
      · intro h
        exact List.append_inj h hentries
      · rintro ⟨hfirst, hrest⟩
        rw [hfirst, hrest]

theorem marks_written_iff (hlength : ∀ p ∈ parts, (mark p).length = p.text.length)
    (hP : ∀ p ∈ parts, ∀ before after,
      marksIn find before p.text after = mark p ↔ P before p after) :
    marks find (written parts) = parts.flatMap mark ↔ Throughout P [] parts := by
  rw [marks_eq]
  exact marksIn_written_iff hlength hP

end Rows

end Restate

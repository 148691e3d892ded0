import Restate.Token

/-!
# Tokens without their places

What a token is by its kind and its text alone. Tokens that lose their offsets are equal just if
they agree in both.
-/

namespace Restate

/-- The token at no place in particular. -/
def Token.unplaced (t : Token) : Token :=
  { t with start := 0, stop := 0 }

namespace Token

@[simp]
theorem unplaced_kind (t : Token) : t.unplaced.kind = t.kind :=
  rfl

@[simp]
theorem unplaced_text (t : Token) : t.unplaced.text = t.text :=
  rfl

@[simp]
theorem unplaced_upper (t : Token) : t.unplaced.upper = t.upper :=
  rfl

@[simp]
theorem unplaced_value (t : Token) : t.unplaced.value = t.value :=
  rfl

@[simp]
theorem unplaced_isTrivia (t : Token) : t.unplaced.isTrivia = t.isTrivia :=
  rfl

@[simp]
theorem unplaced_isWord (t : Token) (words : List Text) :
    t.unplaced.isWord words = t.isWord words :=
  rfl

@[simp]
theorem unplaced_isPunct (t : Token) (mark : Text) : t.unplaced.isPunct mark = t.isPunct mark :=
  rfl

theorem unplaced_eq {t u : Token} (hkind : t.kind = u.kind) (htext : t.text = u.text) :
    t.unplaced = u.unplaced := by
  unfold unplaced
  rw [hkind, htext]

section

variable {t u : Token} (h : t.unplaced = u.unplaced)
include h

theorem kind_of_unplaced : t.kind = u.kind := by
  simpa using congrArg Token.kind h

theorem text_of_unplaced : t.text = u.text := by
  simpa using congrArg Token.text h

theorem upper_of_unplaced : t.upper = u.upper := by
  simpa using congrArg Token.upper h

theorem value_of_unplaced : t.value = u.value := by
  simpa using congrArg Token.value h

end

end Token

theorem significant_unplaced (tokens : List Token) :
    significant (tokens.map Token.unplaced) = (significant tokens).map Token.unplaced := by
  simp [significant, List.filter_map, Function.comp_def]

end Restate

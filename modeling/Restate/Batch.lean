import Restate.Lexing
import Restate.Parens

/-!
# Batches

A batch is a text of statements separated by semicolons. Semicolons inside literals, quoted names,
comments and parentheses separate nothing.
-/

namespace Restate

/-- The statement a stretch of tokens spells, without the blanks at its ends. -/
def statementText (chunk : List Token) : Text :=
  Text.strip (sourceText chunk)

/-- The statements of a batch. Stretches of blanks and comments alone are left out. -/
def splitStatements (batch : Text) : Except Error (List Text) := do
  let tokens ← tokenize batch
  let chunks := splitTopLevel ";" tokens
  return (chunks.filter fun chunk => !chunk.all Token.isTrivia).map statementText

end Restate

import Restate.Keyword

/-!
# Names and quoted spans

How the two dialects write names and string literals. MySQL puts names between backticks and lets a
backslash escape the next character of a literal; SQLite puts names between double quotes, literals
between single quotes, and knows no escape but the doubled quote.
-/

namespace Restate

/-- The delimiter MySQL puts around a name. -/
def backtick : Char := '\x60'

/-- What stands for a backslash and the character after it. The two wildcards of `LIKE` keep their
backslash, and an unknown escape is the character itself. -/
def escapeImage (c : Char) : Text :=
  if c = '0' then ['\x00']
  else if c = 'b' then ['\x08']
  else if c = 'n' then ['\n']
  else if c = 'r' then ['\r']
  else if c = 't' then ['\t']
  else if c = 'Z' then ['\x1a']
  else if c = '%' ∨ c = '_' then ['\\', c]
  else [c]

/-- The contents of a literal, given what stands between its delimiters. -/
def unescape (quote : Char) : Text → Text
  | [] => []
  | [c] => [c]
  | c :: d :: s =>
    if c = '\\' then escapeImage d ++ unescape quote s
    else if c = quote ∧ d = quote then quote :: unescape quote s
    else c :: unescape quote (d :: s)

/-- The contents of a delimited literal; nothing if there is no text at all. -/
def decodeString? : Text → Option Text
  | [] => none
  | quote :: s => some (unescape quote s.dropLast)

/-- The name a delimited identifier stands for; a text without delimiters is the name itself. -/
def decodeIdentifier (s : Text) : Text :=
  match s with
  | quote :: c :: rest =>
    if (quote = backtick ∨ quote = '"') ∧ (c :: rest).getLast? = some quote then
      Text.halved quote (c :: rest).dropLast
    else s
  | _ => s

/-- A name between double quotes. -/
def quoteIdentifier (name : Text) : Text :=
  ['"'] ++ Text.doubled '"' name ++ ['"']

/-- A literal between single quotes. -/
def quoteString (value : Text) : Text :=
  ['\x27'] ++ Text.doubled '\x27' value ++ ['\x27']

/-- Latin letters and the underscore. -/
def isPlainStart (c : Char) : Bool :=
  c.isAlpha || c == '_'

/-- Latin letters, digits and the underscore. -/
def isPlainChar (c : Char) : Bool :=
  c.isAlphanum || c == '_'

/-- A word of Latin letters, digits and underscores that does not begin with a digit. -/
def isPlainWord : Text → Bool
  | [] => false
  | c :: s => isPlainStart c && s.all isPlainChar

/-- The text up to a newline at its very end. -/
def withoutFinalNewline (s : Text) : Text :=
  if s.getLast? = some '\n' then s.dropLast else s

/-- Whether a name may stand unquoted in both dialects. A newline at the very end is overlooked. -/
def isPlainIdentifier (name : Text) : Bool :=
  isPlainWord (withoutFinalNewline name)
    && !keywords.contains (Text.upper name) && !sqliteKeywords.contains (Text.upper name)

/-- An index column is quoted unless its name may stand bare. -/
def bareOrQuoted (name : Text) : Text :=
  if isPlainIdentifier name then name else quoteIdentifier name

/-- Reading a name between delimiters gives the name back. -/
theorem decodeIdentifier_delimited {quote : Char} (hquote : quote = backtick ∨ quote = '"')
    (name : Text) : decodeIdentifier (quote :: (Text.doubled quote name ++ [quote])) = name := by
  cases h : Text.doubled quote name ++ [quote] with
  | nil => simp at h
  | cons c rest =>
    have hlast : (c :: rest).getLast? = some quote := by rw [← h]; simp
    have hbody : (c :: rest).dropLast = Text.doubled quote name := by rw [← h]; simp
    rw [decodeIdentifier, if_pos ⟨hquote, hlast⟩, hbody, Text.halved_doubled]

theorem decodeIdentifier_quoteIdentifier (name : Text) :
    decodeIdentifier (quoteIdentifier name) = name := by
  unfold quoteIdentifier
  rw [List.append_assoc]
  exact decodeIdentifier_delimited (.inr rfl) name

theorem quoteIdentifier_injective : Function.Injective quoteIdentifier :=
  Function.LeftInverse.injective decodeIdentifier_quoteIdentifier

end Restate

import Restate.Token
import Restate.Error
import Restate.Text.Alnum
import Restate.Text.Blank

/-!
# Lexemes

What stands at the head of a text. Each reader cuts a text in two, the lexeme and what follows it;
main statement: a lexeme is not empty, and it and what follows make up the text
(`append_eq_of_lexeme`).

MySQL comments begin with a hash, with two hyphens before a blank or the end, or with a slash and a
star. A name may begin with digits, so digits that run into letters are a name and not a number.
-/

namespace Restate

open Text

/-- A text cut in two. -/
abbrev Cut := Text × Text

namespace Cut

/-- The cut of a longer text, whose lexeme begins with `head`. -/
def after (head : Text) (cut : Cut) : Cut :=
  (head ++ cut.1, cut.2)

/-- The longest beginning of a text made of the given characters. -/
def leading (p : Char → Bool) (s : Text) : Cut :=
  (s.takeWhile p, s.dropWhile p)

/-- The two parts make up the text. -/
def of (cut : Cut) (s : Text) : Prop :=
  cut.1 ++ cut.2 = s

theorem of_after (head : Text) {s : Text} {cut : Cut} (h : cut.of s) :
    (cut.after head).of (head ++ s) := by
  unfold of after at *
  simp [← h]

theorem of_leading (p : Char → Bool) (s : Text) : (leading p s).of s :=
  List.takeWhile_append_dropWhile

end Cut

namespace Lexeme

/-- Up to the end of the line. -/
def line (s : Text) : Cut :=
  Cut.leading (· != '\n') s

/-- Two hyphens open a comment only before a blank or at the end. -/
def hyphensOpen : Text → Bool
  | [] => true
  | c :: _ => isBlank c

def lineComment? : Text → Option Cut
  | '#' :: s => some ((line s).after ['#'])
  | '-' :: '-' :: s => if hyphensOpen s then some ((line s).after ['-', '-']) else none
  | _ => none

/-- Through the end of a block comment. -/
def throughClose : Text → Option Cut
  | [] => none
  | '*' :: '/' :: s => some (['*', '/'], s)
  | c :: s => (throughClose s).map (Cut.after [c])

/-- Through the closing delimiter of a quoted span. A doubled delimiter stands for itself, and where
escapes count, a backslash takes the next character with it. -/
def throughQuote (quote : Char) (escapes : Bool) : Text → Option Cut
  | [] => none
  | [c] => if c = '\\' ∧ escapes then none else if c = quote then some ([c], []) else none
  | c :: d :: s =>
    if c = '\\' ∧ escapes then (throughQuote quote escapes s).map (Cut.after [c, d])
    else if c = quote then
      if d = quote then (throughQuote quote escapes s).map (Cut.after [c, d])
      else some ([c], d :: s)
    else (throughQuote quote escapes (d :: s)).map (Cut.after [c])

/-- A quoted span from its opening delimiter on. -/
def quoted? (quote : Char) (s : Text) : Option Cut :=
  (throughQuote quote (quote != backtick) s).map (Cut.after [quote])

/-- Whether a name goes on at the head of the text. -/
def nameFollows : Text → Bool
  | [] => false
  | c :: _ => isNameChar c

/-- `0x` and hexadecimal digits, with no name running on. -/
def hexadecimal? : Text → Option Cut
  | '0' :: x :: s =>
    if x = 'x' ∨ x = 'X' then
      let (digits, rest) := Cut.leading isHexDigit s
      if digits.isEmpty || nameFollows rest then none else some ('0' :: x :: digits, rest)
    else none
  | _ => none

/-- Digits with an optional point among, before or after them. -/
def mantissa? (s : Text) : Option Cut :=
  match Cut.leading isDecimal s with
  | ([], '.' :: rest) =>
    let (digits, rest) := Cut.leading isDecimal rest
    if digits.isEmpty then none else some ('.' :: digits, rest)
  | ([], _) => none
  | (digits, '.' :: rest) => some ((Cut.leading isDecimal rest).after (digits ++ ['.']))
  | (digits, rest) => some (digits, rest)

/-- An exponent, if its digits are there; otherwise nothing. -/
def exponent : Text → Cut
  | e :: sign :: s =>
    if e = 'e' ∨ e = 'E' then
      if sign = '+' ∨ sign = '-' then
        let (digits, rest) := Cut.leading isDecimal s
        if digits.isEmpty then ([], e :: sign :: s) else (e :: sign :: digits, rest)
      else
        let (digits, rest) := Cut.leading isDecimal (sign :: s)
        if digits.isEmpty then ([], e :: sign :: s) else (e :: digits, rest)
    else ([], e :: sign :: s)
  | s => ([], s)

/-- A decimal number without regard to what follows it. -/
def decimal? (s : Text) : Option Cut :=
  (mantissa? s).map fun cut => (exponent cut.2).after cut.1

/-- Whether the text begins like a hexadecimal literal. -/
def opensHexadecimal : Text → Bool
  | '0' :: x :: _ => x == 'x' || x == 'X'
  | _ => false

/-- A sign right after an `e`. -/
def signFollows : Text → Bool
  | [] => false
  | c :: _ => c == '+' || c == '-'

/-- A digit right after an `e`. -/
def digitFollows : Text → Bool
  | [] => false
  | c :: _ => isDecimal c

/-- What a number may run into: nothing that would lengthen it. Digits alone that run into a name
are the beginning of a name, which is no error but no number either. -/
def afterNumber (number rest : Text) : Except LexFault (Option Cut) :=
  match rest with
  | [] => .ok (some (number, rest))
  | c :: more =>
    if (c = 'e' ∨ c = 'E') ∧ (signFollows more ∨ (number.contains '.' ∧ !digitFollows more)) then
      .error (.badExponent (number ++ c :: more.take 1))
    else if c = '.' ∧ number.contains '.' then .error .badNumber
    else if isNameChar c then
      if number.all isDecimal then .ok none else .error .badNumber
    else .ok (some (number, rest))

/-- A number, or nothing where a name with leading digits stands. -/
def number (s : Text) : Except LexFault (Option Cut) :=
  match hexadecimal? s with
  | some cut => .ok (some cut)
  | none =>
    match decimal? s with
    | none => .error .digitWithoutValue
    | some (text, rest) =>
      if opensHexadecimal s then .error .badHexadecimal else afterNumber text rest

/-- A point followed by a digit. -/
def pointDigit : Text → Bool
  | '.' :: c :: _ => isDigitSign c
  | _ => false

/-- A name of name characters throughout, as it stands after leading digits. -/
def digitName? : Text → Option Cut
  | [] => none
  | c :: s => if isDigitSign c then some ((Cut.leading isNameChar s).after [c]) else none

/-- A word that does not begin with a digit. -/
def word? : Text → Option Cut
  | [] => none
  | c :: s => if isWordStart c then some ((Cut.leading isNameChar s).after [c]) else none

def isVariableChar (c : Char) : Bool :=
  isNameChar c || c == '.'

/-- A variable's name after the at sign: bare, or between delimiters that do not escape. -/
def variableName? : Text → Option Cut
  | [] => none
  | c :: s =>
    if isVariableChar c then some (Cut.leading isVariableChar (c :: s))
    else if c = backtick ∨ c = '\x27' ∨ c = '"' then
      match Cut.leading (· != c) s with
      | (name, d :: rest) => some (c :: name ++ [d], rest)
      | (_, []) => none
    else none

/-- A variable, or the host part of an account name. -/
def atName? : Text → Option Cut
  | '@' :: '@' :: s => (variableName? s).map (Cut.after ['@', '@'])
  | '@' :: s => (variableName? s).map (Cut.after ['@'])
  | _ => none

/-- A colon and a word. -/
def namedPlaceholder? : Text → Option Cut
  | ':' :: c :: s =>
    if isWordStart c then some ((Cut.leading isWordChar s).after [':', c]) else none
  | _ => none

/-- The operators, each before its own beginnings. -/
def operators : List Text :=
  ["<=>", "->>", "<=", ">=", "<>", "!=", "||", "&&", "<<", ">>", ":=", "->",
   "=", "<", ">", "!", "+", "-", "*", "/", "%", "&", "|", "^", "~"]

/-- The first operator the text begins with. -/
def operator? (s : Text) : Option Cut :=
  (operators.find? (·.isPrefixOf s)).map fun sign => (sign, s.drop sign.length)

def punctuation : List Char :=
  ['(', ')', ',', ';', '.']

/-- The reading of a word or of anything that is not quoted, not a number and not a comment. -/
def symbol (c : Char) (s : Text) : Except LexFault (TokenKind × Cut) :=
  match word? (c :: s) with
  | some cut =>
    .ok (if keywords.contains (upper cut.1) then .keyword else .identifier, cut)
  | none =>
  match atName? (c :: s) with
  | some cut => .ok (.identifier, cut)
  | none =>
  if c = '?' then .ok (.placeholder, [c], s)
  else
  match namedPlaceholder? (c :: s) with
  | some cut => .ok (.placeholder, cut)
  | none =>
  match operator? (c :: s) with
  | some cut => .ok (.operator, cut)
  | none =>
  if punctuation.contains c then .ok (.punctuation, [c], s)
  else .error (.strayCharacter c)

/-- The reading of what may be a number: a digit, or a point before a digit that does not continue
a name. -/
def numeric (afterName : Bool) (c : Char) (s : Text) : Except LexFault (TokenKind × Cut) :=
  if c = '.' ∧ afterName then symbol c s
  else
    match number (c :: s) with
    | .error fault => .error fault
    | .ok (some cut) => .ok (.number, cut)
    | .ok none =>
      match digitName? (c :: s) with
      | some cut => .ok (.identifier, cut)
      | none => symbol c s

end Lexeme

/-- The token at the head of a text: its kind, its text and what follows. Whether the last
significant token before it ended a name decides how a point is read. -/
def lexeme (afterName : Bool) (c : Char) (s : Text) : Except LexFault (TokenKind × Cut) :=
  if isBlank c then .ok (.whitespace, Cut.leading isBlank (c :: s))
  else
  match Lexeme.lineComment? (c :: s) with
  | some cut => .ok (.comment, cut)
  | none =>
  match c, s with
  | '/', '*' :: body =>
    match Lexeme.throughClose body with
    | some cut => .ok (.comment, cut.after ['/', '*'])
    | none => .error .unterminatedComment
  | _, _ =>
  if c = backtick then
    match Lexeme.quoted? c s with
    | some cut => .ok (.quotedIdentifier, cut)
    | none => .error .unterminatedIdentifier
  else if c = '\x27' ∨ c = '"' then
    match Lexeme.quoted? c s with
    | some cut => .ok (.string, cut)
    | none => .error .unterminatedString
  else if isDigitSign c || Lexeme.pointDigit (c :: s) then Lexeme.numeric afterName c s
  else Lexeme.symbol c s

end Restate

import Restate.Lexeme

/-!
# Literals

The argument of a tag that is acted on has to be a literal: numbers, quoted texts, a few constants,
and tuples, sets and tables of literals. It is only recognised and has no value here: its text is
cut into tokens, and a stack of open groups reads these one by one.
-/

namespace Restate

namespace Literal

/-- What a literal is, as far as this decides where it may stand. -/
inductive Shape where
  /-- A number without a sign, to which an imaginary one may be added. -/
  | real
  | imaginary
  /-- A real number with a sign, which takes no second one. -/
  | signed
  /-- A quoted text, which a neighbour lengthens. -/
  | text
  /-- Quoted bytes, which a neighbour lengthens. -/
  | bytes
  /-- The name of the empty set, which is a literal only if it is called. -/
  | setName
  /-- Any other literal that cannot change, and so may be looked up. -/
  | fixed
  /-- A table, a set, or a tuple with such a thing inside. -/
  | changeable
  deriving DecidableEq, Repr

/-- A piece of a literal's text. -/
inductive Token where
  /-- A whole literal in itself, or the name of the empty set. -/
  | atom (shape : Shape)
  | plus
  | comma
  | colon
  | openRound
  | closeRound
  | openCurly
  | closeCurly
  | newline
  deriving DecidableEq, Repr

/-! ## Tokens -/

/-- Characters of names. Those beyond the first 128 are all taken for letters. -/
def isNameChar (c : Char) : Bool :=
  c.isAlphanum || c == '_' || 128 ≤ c.toNat

/-- Digits with single underscores between them. -/
def digits (isDigit : Char → Bool) : Text → Cut
  | [] => ([], [])
  | [c] => if isDigit c then ([c], []) else ([], [c])
  | c :: d :: s =>
    if !isDigit c then ([], c :: d :: s)
    else if d = '_' then
      let more := digits isDigit s
      if more.1.isEmpty then ([c], d :: s) else more.after [c, d]
    else (digits isDigit (d :: s)).after [c]

/-- The digits of the base that a letter behind a zero stands for. -/
def baseDigit? (letter : Char) : Option (Char → Bool) :=
  match letter.toLower with
  | 'x' => some Text.isHexDigit
  | 'o' => some fun c => '0' ≤ c && c ≤ '7'
  | 'b' => some fun c => c == '0' || c == '1'
  | _ => none

/-- An integer in a base of its own. An underscore may stand before its digits. -/
def basedInteger? : Text → Option Cut
  | '0' :: letter :: s =>
    (baseDigit? letter).bind fun isDigit =>
      let lead : Text := if s.head? = some '_' then ['_'] else []
      let cut := digits isDigit (s.drop lead.length)
      if cut.1.isEmpty then none else some (cut.after ('0' :: letter :: lead))
  | _ => none

/-- A point and the digits behind it, which may be missing. -/
def fraction : Text → Cut
  | '.' :: s => (digits Char.isDigit s).after ['.']
  | s => ([], s)

/-- An exponent; nothing without its digits. -/
def exponent (s : Text) : Cut :=
  match s with
  | e :: more =>
    if e.toLower = 'e' then
      let sign : Text := if more.head? = some '+' ∨ more.head? = some '-' then more.take 1 else []
      let cut := digits Char.isDigit (more.drop sign.length)
      if cut.1.isEmpty then ([], s) else cut.after (e :: sign)
    else ([], s)
  | [] => ([], [])

/-- Whether decimal digits may stand alone: no zeros lead, and there are not too many. -/
def isWholeNumber (text : Text) : Bool :=
  text.all (fun c => c == '0' || c == '_')
    || (text.head? != some '0' && (text.filter (· != '_')).length ≤ NumeralFault.digitLimit)

/-- A decimal number, imaginary if a `j` ends it. -/
def decimal? (s : Text) : Option (Shape × Cut) :=
  let whole := digits Char.isDigit s
  let part := fraction whole.2
  let power := exponent part.2
  let read := whole.1 ++ part.1 ++ power.1
  if whole.1.isEmpty && part.1.length ≤ 1 then none
  else
    match power.2 with
    | 'j' :: rest => some (.imaginary, read ++ ['j'], rest)
    | 'J' :: rest => some (.imaginary, read ++ ['J'], rest)
    | rest =>
      if part.1.isEmpty && power.1.isEmpty && !isWholeNumber whole.1 then none
      else some (.real, read, rest)

/-- A number that no name runs into. -/
def number? (s : Text) : Option (Shape × Cut) :=
  let found : Option (Shape × Cut) :=
    match basedInteger? s with
    | some cut => some (.real, cut)
    | none => decimal? s
  found.filter fun (_, _, rest) => !((rest.head?.map isNameChar).getD false)

/-- How a quoted span is to be read. -/
structure Quoting where
  /-- Whether a backslash stands for itself. -/
  raw : Bool
  bytes : Bool
  quote : Char
  /-- Whether three quotes open and close the span, which may then hold line ends. -/
  triple : Bool

/-- Whether so many hexadecimal digits stand at the head of a text. -/
def hexAhead (count : Nat) (s : Text) : Bool :=
  (s.take count).length == count && (s.take count).all Text.isHexDigit

def ofHex (s : Text) : Nat :=
  s.foldl (fun n c => n * 16 + (if c.isDigit then c.toNat - 48 else c.toLower.toNat - 87)) 0

/-- The name of a character between curly brackets, at the head of a text. -/
def nameAhead : Text → Bool
  | '\x7b' :: s =>
    let name := s.takeWhile fun c => c.isAlphanum || c == ' ' || c == '-'
    !name.isEmpty && (s.drop name.length).head? == some '\x7d'
  | _ => false

/-- Whether a backslash before `c` means something, given what follows; most mean themselves. -/
def Quoting.reads (quoting : Quoting) (c : Char) (s : Text) : Bool :=
  if quoting.raw then true
  else if c = 'x' then hexAhead 2 s
  else if quoting.bytes then true
  else if c = 'u' then hexAhead 4 s
  else if c = 'U' then hexAhead 8 s && ofHex (s.take 8) < 0x110000
  else if c = 'N' then nameAhead s
  else true

/-- Whether a character may stand in the span: bytes are written in the first 128 characters. -/
def Quoting.admits (quoting : Quoting) (c : Char) : Bool :=
  !quoting.bytes || c.toNat < 128

/-- Through the closing quotes of a span. -/
def throughQuotes (quoting : Quoting) : Text → Option Cut
  | [] => none
  | [c] => if c = quoting.quote ∧ !quoting.triple then some ([c], []) else none
  | c :: d :: s =>
    if !quoting.admits c then none
    else if c = '\\' then
      if quoting.reads d s ∧ quoting.admits d then (throughQuotes quoting s).map (Cut.after [c, d])
      else none
    else if c = '\n' ∧ !quoting.triple then none
    else if c = quoting.quote then
      if !quoting.triple then some ([c], d :: s)
      else if d = c ∧ s.head? = some c then some ([c, c, c], s.drop 1)
      else (throughQuotes quoting (d :: s)).map (Cut.after [c])
    else (throughQuotes quoting (d :: s)).map (Cut.after [c])

/-- The letters that may stand before the opening quote, in lower case. -/
def quotingLetters : List Text :=
  ["", "r", "u", "b", "br", "rb"]

/-- A quoted span from its opening quote on, behind the letters that say how it is read. -/
def quoted? (letters : Text) (quote : Char) (s : Text) : Option (Shape × Cut) :=
  let letters := letters.map Char.toLower
  let bytes := letters.contains 'b'
  let triple := [quote, quote].isPrefixOf s
  let opening := quote :: (if triple then [quote, quote] else [])
  let quoting : Quoting := ⟨letters.contains 'r', bytes, quote, triple⟩
  if quotingLetters.contains letters then
    (throughQuotes quoting (s.drop (opening.length - 1))).map fun cut =>
      (if bytes then .bytes else .text, cut.after opening)
  else none

/-- A constant by its name, or the name of the empty set. -/
def named? (word : Text) : Option Shape :=
  if ["True", "False", "None"].contains (String.ofList word) then some .fixed
  else if word = "set".toList then some .setName
  else none

/-- A word, or the quoted span that it introduces. -/
def word? (s : Text) : Option (Shape × Cut) :=
  let (word, rest) := Cut.leading isNameChar s
  match rest with
  | '"' :: more => (quoted? word '"' more).map fun (shape, cut) => (shape, cut.after word)
  | '\x27' :: more => (quoted? word '\x27' more).map fun (shape, cut) => (shape, cut.after word)
  | _ => (named? word).map fun shape => (shape, word, rest)

/-- The literal at the head of a text that is one token. -/
def atom? (s : Text) : Option (Shape × Cut) :=
  match s with
  | '.' :: '.' :: '.' :: rest => some (.fixed, ['.', '.', '.'], rest)
  | c :: _ => if c.isDigit || c == '.' then number? s else word? s
  | [] => none

/-- The mark that one character is. -/
def mark? : Char → Option Token
  | '+' => some .plus
  | '-' => some .plus
  | ',' => some .comma
  | ':' => some .colon
  | '(' => some .openRound
  | ')' => some .closeRound
  | '\x7b' => some .openCurly
  | '\x7d' => some .closeCurly
  | '\n' => some .newline
  | _ => none

/-- The tokens of a text, of which the first `skip` characters are read already. Blanks, comments
and line ends behind a backslash are none. -/
def tokensFrom (skip : Nat) : Text → Option (List Token)
  | [] => some []
  | c :: s =>
    match skip with
    | skip + 1 => tokensFrom skip s
    | 0 =>
      if c = ' ' ∨ c = '\t' ∨ c = '\x0c' then tokensFrom 0 s
      else if c = '#' then tokensFrom (s.takeWhile (· != '\n')).length s
      else if c = '\\' then
        if s.head? = some '\n' then tokensFrom 1 s else none
      else
        match mark? c with
        | some mark => (tokensFrom 0 s).map (mark :: ·)
        | none =>
          match atom? (c :: s) with
          | some (shape, read, _) => (tokensFrom (read.length - 1) s).map (.atom shape :: ·)
          | none => none

/-! ## Groups -/

/-- Where the reading of one literal stands. -/
inductive Operand where
  | awaited
  /-- A sign waits for its number. -/
  | sign
  | read (shape : Shape)
  /-- A real number and a sign wait for an imaginary number. -/
  | sum
  deriving DecidableEq

/-- What holds a group together. -/
inductive Bracket where
  | whole
  | round
  /-- Round brackets behind the name of the empty set. -/
  | call
  | curly
  deriving DecidableEq

/-- A group that is open: literals between commas, the last of which is being read. -/
structure Group where
  bracket : Bracket
  finished : Nat
  /-- Whether none of them can change. -/
  fixed : Bool
  /-- In curly brackets, whether the elements are pairs, once this is known. -/
  pairs : Option Bool
  /-- Whether the key of the pair that is being read is finished. -/
  keyRead : Bool
  operand : Operand

namespace Group

def opened (bracket : Bracket) : Group :=
  ⟨bracket, 0, true, none, false, .awaited⟩

/-- Whether nothing of the next element is read. -/
def isAwaiting (group : Group) : Bool :=
  group.operand == .awaited && !group.keyRead

/-- The group with a literal read behind what is there already. -/
def take (group : Group) (shape : Shape) : Option Group :=
  let taken : Option Shape :=
    match group.operand, shape with
    | .awaited, shape => some shape
    | .sign, .real => some .signed
    | .sign, .imaginary => some .fixed
    | .sum, .imaginary => some .fixed
    | .read .text, .text => some .text
    | .read .bytes, .bytes => some .bytes
    | _, _ => none
  taken.map fun shape => { group with operand := .read shape }

/-- The group with a plus or minus sign read. -/
def takeSign (group : Group) : Option Group :=
  match group.operand with
  | .awaited => some { group with operand := .sign }
  | .read .real => some { group with operand := .sum }
  | .read .signed => some { group with operand := .sum }
  | _ => none

/-- The group with its element finished. Elements of a set have to be fixed. -/
def finish (group : Group) : Option Group :=
  match group.operand with
  | .read shape =>
    let fixed := shape != .changeable
    let misplaced :=
      group.bracket == .curly && !group.keyRead && (group.pairs == some true || !fixed)
    if shape = .setName ∨ group.bracket = .call ∨ misplaced then none
    else
      some ⟨group.bracket, group.finished + 1, group.fixed && fixed, some group.keyRead, false,
        .awaited⟩
  | _ => none

/-- The group with a colon read behind a key. Keys have to be fixed. -/
def finishKey (group : Group) : Option Group :=
  match group.operand with
  | .read shape =>
    let misplaced := group.bracket != .curly || group.keyRead || group.pairs == some false
    if shape = .setName ∨ shape = .changeable ∨ misplaced then none
    else some { group with pairs := some true, keyRead := true, operand := .awaited }
  | _ => none

/-- A literal in round brackets by itself; neighbours do not lengthen it. -/
def enclosed : Shape → Shape
  | .text => .fixed
  | .bytes => .fixed
  | shape => shape

/-- The literal that a group is, when it is closed. -/
def close (group : Group) : Option Shape :=
  match group.bracket, group.operand with
  | .call, _ => if group.isAwaiting then some .changeable else none
  | .curly, _ =>
    if group.isAwaiting then some .changeable else group.finish.map fun _ => .changeable
  | .round, .read shape =>
    if group.finished = 0 then some (enclosed shape)
    else group.finish.map fun group => if group.fixed then .fixed else .changeable
  | .round, .awaited => some (if group.fixed then .fixed else .changeable)
  | _, _ => none

/-- Whether the whole text may end here. -/
def mayEnd (group : Group) : Bool :=
  if group.isAwaiting then 0 < group.finished else group.finish.isSome

end Group

structure Reading where
  /-- The innermost open group. -/
  inner : Group
  /-- The groups around it, from the inside out. -/
  outer : List Group
  /-- Whether a line end has ended the literal. -/
  ended : Bool

namespace Reading

/-- How many groups may be open inside each other. -/
def depthLimit : Nat := 200

def start : Reading :=
  ⟨.opened .whole, [], false⟩

/-- The reading with a change in the innermost group. -/
def within (reading : Reading) (change : Group → Option Group) : Option Reading :=
  (change reading.inner).map fun group => { reading with inner := group }

/-- Opens a group. Behind the name of the empty set it is a call; otherwise it is a literal to be
taken in when it is closed. -/
def enter (reading : Reading) (bracket : Bracket) : Option Reading :=
  if depthLimit ≤ reading.outer.length then none
  else if reading.inner.operand = .read .setName then
    if bracket = .round then
      let around := { reading.inner with operand := .awaited }
      some { reading with inner := .opened .call, outer := around :: reading.outer }
    else none
  else some { reading with inner := .opened bracket, outer := reading.inner :: reading.outer }

/-- Closes the innermost group, which the bracket has to fit, and takes in what it is. -/
def leave (reading : Reading) (curly : Bool) : Option Reading :=
  match reading.outer with
  | [] => none
  | around :: outer =>
    if (reading.inner.bracket == .curly) != curly then none
    else do
      let shape ← reading.inner.close
      let group ← around.take shape
      return ⟨group, outer, reading.ended⟩

/-- A line end: it means nothing between brackets and before the literal, and ends it behind it. -/
def endLine (reading : Reading) : Reading :=
  if reading.outer.isEmpty && !(reading.inner.isAwaiting && reading.inner.finished == 0) then
    { reading with ended := true }
  else reading

def step (reading : Reading) (token : Token) : Option Reading :=
  if token = .newline then some reading.endLine
  else if reading.ended then none
  else
    match token with
    | .atom shape => reading.within (·.take shape)
    | .plus => reading.within Group.takeSign
    | .comma => reading.within Group.finish
    | .colon => reading.within Group.finishKey
    | .openRound => reading.enter .round
    | .openCurly => reading.enter .curly
    | .closeRound => reading.leave false
    | .closeCurly => reading.leave true
    | .newline => some reading.endLine

def mayEnd (reading : Reading) : Bool :=
  reading.outer.isEmpty && reading.inner.mayEnd

end Reading

end Literal

/-- Whether a text is a literal. One with a null character never is. -/
def isLiteral (s : Text) : Bool :=
  let read : Option Literal.Reading := do
    let tokens ← Literal.tokensFrom 0 (Text.unifyLineEnds s)
    tokens.foldlM Literal.Reading.step Literal.Reading.start
  !s.contains '\x00' && (read.map Literal.Reading.mayEnd).getD false

end Restate

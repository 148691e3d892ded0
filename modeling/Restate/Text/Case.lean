import Restate.Text.CaseTable

/-!
# Upper and lower case

Full case mapping: one character may become several, and a capital sigma becomes a final sigma
where it ends a word. Words of SQL are compared by their upper case, names of columns and keys by
their lower case.
-/

namespace Restate.Text

def upperChar (c : Char) : Text :=
  if c.toNat < 128 then [c.toUpper]
  else
    match upperExpansions.find? (·.1 == c.toNat) with
    | some (_, image) => image.map Char.ofNat
    | none => [((CaseRun.image? upperRuns c.toNat).map Char.ofNat).getD c]

def upper (s : Text) : Text :=
  s.flatMap upperChar

/-- Letters that come in cases, unless they are skipped in context. -/
def isCased (c : Char) : Bool :=
  if c.toNat < 128 then c.isAlpha else Steps.contains casedSteps c.toNat

/-- Characters that are looked through when the letters around a sigma are sought. -/
def isCaseIgnorable (c : Char) : Bool :=
  if c.toNat < 128 then
    c == '\x27' || c == '.' || c == ':' || c == '^' || c == '\x60'
  else Steps.contains caseIgnorableSteps c.toNat

/-- The lower case of one character, out of context. -/
def lowerChar (c : Char) : Text :=
  if c.toNat < 128 then [c.toLower]
  else if c.toNat = 0x130 then ['i', '\u0307']
  else [((CaseRun.image? lowerRuns c.toNat).map Char.ofNat).getD c]

/-- Lower case, given whether the letter before is a cased one. -/
def lowerAfter (cased : Bool) : Text → Text
  | [] => []
  | c :: s =>
    let image : Text :=
      if c.toNat = 0x3a3 then
        let more := ((s.dropWhile isCaseIgnorable).head?.map isCased).getD false
        if cased && !more then ['\u03c2'] else ['\u03c3']
      else lowerChar c
    image ++ lowerAfter (if isCaseIgnorable c then cased else isCased c) s

def lower (s : Text) : Text :=
  lowerAfter false s

end Restate.Text

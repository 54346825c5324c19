import TsQuery.Text.LowerCase.Table

/-!
# Lower case

Full lower-casing of Unicode 14.0. It goes character by character, with two exceptions: a capital I
with a dot above becomes two characters, and a capital sigma that ends a word becomes the final
small sigma. Whether a sigma is final depends on the nearest characters on each side that a case
context does not skip: a cased one before it and none after it.
-/

namespace TsQuery

/-- The small letter of a character, which is the character itself if it has none. -/
def smallLetter (c : CodePoint) : CodePoint :=
  match caseRuns.find? (·.covers c.toNat) with
  | some run => CodePoint.ofNat (c.toNat + run.shift).toNat
  | none => c

/-- Whether a case context looks past a character. -/
def isCaseIgnorable (c : CodePoint) : Bool :=
  caseIgnorableSet.contains c.toNat

/-- Whether a case context stops at a character and finds a letter with case. -/
def isCased (c : CodePoint) : Bool :=
  casedSet.contains c.toNat

namespace Text

/-- Whether the first character of a text that a case context stops at is cased. -/
def startsCased (text : Text) : Bool :=
  match text.find? fun c => !isCaseIgnorable c with
  | some c => isCased c
  | none => false

/-- The lower case of one character, given whether a cased letter stands before it and
what follows. -/
def lowerChar (afterCased : Bool) (c : CodePoint) (rest : Text) : Text :=
  if c = 'İ' then ['i', '\u0307']
  else if c = 'Σ' then [if afterCased && !startsCased rest then 'ς' else 'σ']
  else [smallLetter c]

/-- The lower case of a text, given whether a cased letter stands before it. -/
def lowerAfter (afterCased : Bool) : Text → Text
  | [] => []
  | c :: rest =>
    lowerChar afterCased c rest
      ++ lowerAfter (if isCaseIgnorable c then afterCased else isCased c) rest

/-- The lower case of a text. -/
def lower (text : Text) : Text :=
  lowerAfter false text

end Text

end TsQuery

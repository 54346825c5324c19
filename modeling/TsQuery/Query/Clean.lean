import TsQuery.Text.Replace

/-!
# Clean query text

Before a query is read, control characters are taken out, the names of three programming languages
are spelled in letters, and the characters that mean nothing to a query become blanks. The names
come first, since their signs are noise by themselves.
-/

namespace TsQuery

namespace Query

/-- Whether a character is an ASCII control character. -/
def isControl (c : CodePoint) : Bool :=
  c.toNat ≤ 0x1f || c.toNat == 0x7f

/-- The characters that become blanks. -/
def noiseCharacters : Text :=
  [';', '@', '#', '$', '%', '^', '*', '=', '+', '[', ']', '{', '}', '\\', '/', '<', '>']

/-- Whether a character becomes a blank. -/
def isNoise (c : CodePoint) : Bool :=
  noiseCharacters.contains c

/-- A text without its control characters. -/
def dropControls (text : Text) : Text :=
  text.filter fun c => !isControl c

/-- A text with C++, C# and F# spelled in letters. -/
def spellLanguages (text : Text) : Text :=
  let text := text.replace 'c' ['+', '+'] "cplusplus"
  let text := text.replace 'c' ['#'] "csharp"
  text.replace 'f' ['#'] "fsharp"

/-- A text with a blank for each noise character. -/
def blankNoise (text : Text) : Text :=
  text.map fun c => if isNoise c then ' ' else c

/-- The text of a query as the tokens are cut from it. -/
def clean (text : Text) : Text :=
  blankNoise (spellLanguages (dropControls text))

end Query

end TsQuery

import TsQuery.Query.Token
import TsQuery.Text.Alphanumeric
import TsQuery.Text.LowerCase

/-!
# Cutting a text into tokens

Double quotes pair up from the left, each pair enclosing a phrase; a last quote without a partner is
noise. Outside phrases the signs `& | ! ( )` are tokens, and so is each maximal run of other
non-blank characters: an operator if it spells one in any case, a word if it can be searched for,
else noise.
-/

namespace TsQuery

namespace Query

/-- The meaning of a sign of the query grammar. -/
def signKind? : CodePoint → Option TokenKind
  | '&' => some .and
  | '|' => some .or
  | '!' => some .not
  | '(' => some .opening
  | ')' => some .closing
  | _ => none

/-- The meaning of a lower-case word that spells an operator. -/
def keywordKind? (word : Text) : Option TokenKind :=
  if word = (['a', 'n', 'd'] : Text) then some .and
  else if word = (['o', 'r'] : Text) then some .or
  else if word = (['n', 'o', 't'] : Text) then some .not
  else none

/-- The quote on both sides of a phrase. -/
def quoteMark : CodePoint := '"'

/-- Whether a character can stand in a word: no blank, no sign, no quote. -/
def isWordChar (c : CodePoint) : Bool :=
  !isBlank c && (signKind? c).isNone && c != quoteMark

/-- The words of a phrase: the runs of word characters that can be searched for. -/
def phraseWords (inside : Text) : List Text :=
  (inside.runs isWordChar).filter Text.isSearchable

/-- What a run of word characters stands for, if it is not noise. -/
def wordKind? (run : Text) : Option TokenKind :=
  match keywordKind? run.lower with
  | some kind => some kind
  | none => if run.isSearchable then some .word else none

/-- The inside of a phrase and what follows its closing quote, if there is one. -/
def splitQuote? (text : Text) : Option (Text × Text) :=
  match text.dropWhile (· != quoteMark) with
  | [] => none
  | _ :: rest => some (text.takeWhile (· != quoteMark), rest)

theorem length_lt_of_splitQuote? {text inside rest : Text}
    (h : splitQuote? text = some (inside, rest)) : rest.length < text.length := by
  have bound := (List.dropWhile_sublist (p := (· != quoteMark)) (l := text)).length_le
  unfold splitQuote? at h
  split at h
  · cases h
  · next eq =>
    cases h
    rw [eq] at bound
    exact bound

/-- The tokens of a text that begins at a position. -/
def tokensFrom (position : Nat) : Text → List Token
  | [] => []
  | c :: text =>
    if c = quoteMark then
      match h : splitQuote? text with
      | some (inside, rest) =>
        ⟨.phrase (phraseWords inside), quoteMark :: inside ++ [quoteMark], position⟩
          :: tokensFrom (position + inside.length + 2) rest
      | none => tokensFrom (position + 1) text
    else
      match signKind? c with
      | some kind => ⟨kind, [c], position⟩ :: tokensFrom (position + 1) text
      | none =>
        if isBlank c then tokensFrom (position + 1) text
        else
          let run := c :: text.takeWhile isWordChar
          (wordKind? run).toList.map (⟨·, run, position⟩)
            ++ tokensFrom (position + run.length) (text.dropWhile isWordChar)
termination_by text => text.length
decreasing_by
  · exact Nat.lt_succ_of_lt (length_lt_of_splitQuote? h)
  · exact Nat.lt_succ_self _
  · exact Nat.lt_succ_self _
  · exact Nat.lt_succ_self _
  · exact Nat.lt_succ_of_le (List.dropWhile_sublist isWordChar).length_le

/-- The tokens of a text, left to right. -/
def tokens (text : Text) : List Token :=
  tokensFrom 0 text

end Query

end TsQuery

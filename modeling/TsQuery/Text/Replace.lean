import TsQuery.Text.Basic

/-!
# Replacing parts of a text

Every occurrence of a pattern is replaced, leftmost first and without overlap. Patterns are written
in small letters and match ASCII letters of either case.
-/

namespace TsQuery

namespace Text

/-- What follows a pattern at the beginning of a text, ASCII letters of either case matching. -/
def after? : Text → Text → Option Text
  | [], text => some text
  | _ :: _, [] => none
  | p :: pattern, c :: text => if c.toSmallAscii = p then after? pattern text else none

theorem length_le_of_after? {pattern text rest : Text} (h : after? pattern text = some rest) :
    rest.length ≤ text.length := by
  induction pattern generalizing text with
  | nil => cases h; exact Nat.le_refl _
  | cons p pattern ih =>
    cases text with
    | nil => cases h
    | cons c text =>
      simp only [after?] at h
      split at h
      · exact Nat.le_succ_of_le (ih h)
      · cases h

/-- A text with every occurrence of the pattern `first :: more` replaced. -/
def replace (text : Text) (first : CodePoint) (more replacement : Text) : Text :=
  match text with
  | [] => []
  | c :: text =>
    match _h : after? (first :: more) (c :: text) with
    | some rest => replacement ++ replace rest first more replacement
    | none => c :: replace text first more replacement
termination_by text.length
decreasing_by
  · simp only [after?] at _h
    split at _h
    · exact Nat.lt_succ_of_le (length_le_of_after? _h)
    · cases _h
  · exact Nat.lt_succ_self _

end Text

end TsQuery

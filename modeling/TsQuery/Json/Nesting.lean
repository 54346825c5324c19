import TsQuery.Json.Read

/-!
# Values within values

Reading a value within an array or an object is a call within a call, and the runtime allows no more
than a thousand calls at once. A text that opens too many arrays and objects within each other is
not read to its end, whether it would turn out to be JSON or not: at the bracket for which there is
no call left, reading breaks off (`Json.overflow?`). Nothing that stands before that bracket is
wrong, or reading would have ended there.
-/

namespace TsQuery

namespace Json

/-- How many arrays and objects can be open at once when a command on a query reads the settings
file: the calls that are left by those that lead to the reader. Other ways to the reader leave a few
more or less, and so does an error that is found at the last levels, which takes calls to report. -/
def maxNesting : Nat := 987

/-- The message when reading breaks off at a bracket. -/
def overflowMessage (bracket : CodePoint) : String :=
  let kind := if bracket = '[' then "array" else "object"
  s!"maximum recursion depth exceeded while decoding a JSON {kind} from a unicode string"

mutual

/-- The bracket at which reading a value breaks off, if there is room for a number of values within
each other. -/
def overflow? (room : Nat) (text : Text) : Option CodePoint :=
  match text with
  | [] => none
  | c :: rest =>
    if c = '[' then
      match room with
      | 0 => some c
      | room + 1 =>
        if (skip rest).head? = some (.char ']') then none else elementsOverflow? room (skip rest)
    else if c = '\x7b' then
      match room with
      | 0 => some c
      | room + 1 =>
        if (skip rest).head? = some (.char '\x7d') then none else membersOverflow? room (skip rest)
    else none
termination_by (text.length, 0)
decreasing_by
  · have := length_skip_le rest; exact Prod.Lex.left _ _ (Nat.lt_succ_of_le this)
  · have := length_skip_le rest; exact Prod.Lex.left _ _ (Nat.lt_succ_of_le this)

/-- The bracket at which reading the elements of an array breaks off. -/
def elementsOverflow? (room : Nat) (text : Text) : Option CodePoint :=
  match overflow? room text with
  | some bracket => some bracket
  | none =>
    match readValue text with
    | .error _ => none
    | .ok first =>
      match h : skip first.rest with
      | ',' :: rest =>
        have shorter : (skip rest).length < text.length := by
          have := length_skip_le rest
          have := length_skip_le first.rest
          have := first.shorter
          simp only [h, List.length_cons] at *
          omega
        elementsOverflow? room (skip rest)
      | _ => none
termination_by (text.length, 1)
decreasing_by
  · exact Prod.Lex.right _ Nat.zero_lt_one
  · exact Prod.Lex.left _ _ shorter

/-- The bracket at which reading the members of an object breaks off. -/
def membersOverflow? (room : Nat) (text : Text) : Option CodePoint :=
  match text with
  | '"' :: body =>
    match readString ('"' :: body) body with
    | .error _ => none
    | .ok key =>
      match hColon : skip key.rest with
      | ':' :: afterColon =>
        have colonShorter : (skip afterColon).length < body.length := by
          have := length_skip_le afterColon
          have := length_skip_le key.rest
          have := key.shorter
          simp only [hColon, List.length_cons] at *
          omega
        match overflow? room (skip afterColon) with
        | some bracket => some bracket
        | none =>
          match readValue (skip afterColon) with
          | .error _ => none
          | .ok value =>
            match h : skip value.rest with
            | ',' :: rest =>
              have shorter : (skip rest).length < body.length := by
                have := length_skip_le rest
                have := length_skip_le value.rest
                have := value.shorter
                simp only [h, List.length_cons] at *
                omega
              membersOverflow? room (skip rest)
            | _ => none
      | _ => none
  | _ => none
termination_by (text.length, 1)
decreasing_by
  · exact Prod.Lex.left _ _ (Nat.lt_succ_of_lt colonShorter)
  · exact Prod.Lex.left _ _ (Nat.lt_succ_of_lt shorter)

end

end Json

end TsQuery

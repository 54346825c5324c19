import TsQuery.Number.Numeral
import TsQuery.Text.Quoted

/-!
# Wrong arguments

What can be wrong with the arguments of a command line, and its wording. Options are named by their
title, all spellings of an option with slashes between them.
-/

namespace TsQuery

namespace CommandLine

/-- Why a value is no limit on the length of a query. -/
inductive LimitFault
  | notInteger (text : Text)
  | notPositive (text : Text)
  deriving DecidableEq

/-- A fault of a limit in words. -/
def LimitFault.message : LimitFault → Text
  | notInteger text => text ++ " is not an integer"
  | notPositive text => text ++ " is an invalid positive int value"

/-- Reads a limit, which must be positive; it may still be out of range. -/
def readLimit (text : Text) : Except LimitFault Int :=
  match Numeral.read? text with
  | none => .error (.notInteger text)
  | some n => if n ≤ 0 then .error (.notPositive text) else .ok n

/-- What is wrong with the arguments of a command line. -/
inductive UsageProblem
  | ambiguous (argument : Text) (spellings : List Text)
  | missingValues (option : Text) (count : Nat)
  | ignoredValue (option value : Text)
  | excluded (option other : Text)
  | invalidLimit (option : Text) (fault : LimitFault)
  | unknownCommand (name : Text) (commands : List Text)
  | missingQuery
  | unrecognized (arguments : List Text)
  deriving DecidableEq

/-- A problem in words. -/
def UsageProblem.message : UsageProblem → Text
  | ambiguous argument spellings =>
    "ambiguous option: " ++ argument ++ " could match " ++ Text.joined ", " spellings
  | missingValues option count =>
    let expected := if count = 1 then "one argument" else s!"{count} arguments"
    "argument " ++ option ++ ": expected " ++ expected
  | ignoredValue option value =>
    "argument " ++ option ++ ": ignored explicit argument " ++ value.quoted
  | excluded option other => "argument " ++ option ++ ": not allowed with argument " ++ other
  | invalidLimit option fault => "argument " ++ option ++ ": " ++ fault.message
  | unknownCommand name commands =>
    let choices := Text.joined ", " (commands.map Text.quoted)
    "argument command: invalid choice: " ++ name.quoted ++ " (choose from " ++ choices ++ ")"
  | missingQuery => "the following arguments are required: query"
  | unrecognized arguments => "unrecognized arguments: " ++ Text.joined " " arguments

end CommandLine

end TsQuery

import TsQuery.CommandLine.Piece

/-!
# Events of a command line

The pieces of a command line are joined to what happens in order: options with their values, the
operand that is awaited, and extra arguments that belong to nothing. The first problem is the last
event. A command line awaits one operand or the name of a command, to which all further arguments
belong.

An option of one letter without values can have more letters attached, each an option of its own;
nothing of such an argument happens before it is understood in full. The separator belongs to the
operand that it stands before or behind. A value that is attached to an option and is the separator
counts as none.
-/

namespace TsQuery

namespace CommandLine

/-- What happens on a command line. -/
inductive Event (α : Type)
  | option (option : α) (values : List Text)
  | operand (text : Text) (following : List Text)
  | extra (text : Text)
  | problem (problem : UsageProblem)

/-- What is awaited beside options: nothing any more, an operand, the separator behind an operand,
or the name of a command. -/
inductive Awaited
  | nothing
  | operand
  | separator
  | command
  deriving DecidableEq

/-- What is awaited after a piece that is neither operand nor separator. -/
def Awaited.afterOther : Awaited → Awaited
  | .separator => .nothing
  | awaited => awaited

/-- An option that values must still follow, after flags from the same argument. -/
structure Pending (α : Type) where
  flags : List α
  option : α
  values : List Text
  missing : Nat

namespace Pending

variable {α : Type}

/-- The events when all values are there. -/
def events (pending : Pending α) : List (Event α) :=
  pending.flags.map (.option · []) ++ [.option pending.option pending.values]

/-- Takes one more value. -/
def take (pending : Pending α) (value : Text) : Pending α :=
  { pending with values := pending.values ++ [value], missing := pending.missing - 1 }

end Pending

namespace OptionTable

variable {α : Type} [DecidableEq α]

/-- The name of an option in messages. -/
def title (table : OptionTable α) (option : α) : Text :=
  Text.joined ['/'] ((table.spellings.filter fun entry => entry.2 = option).map Prod.fst)

/-- The problem of an option that has not enough values. -/
def missingValues (table : OptionTable α) (option : α) : UsageProblem :=
  .missingValues (table.title option) (table.valueCount option)

/-- Whether a spelling has a single dash. -/
def isShort : Text → Bool
  | '-' :: '-' :: _ => false
  | _ => true

/-- Resolves the letters attached to an option: the flags among them, then the last option and the
value that is attached to that. -/
def letters (table : OptionTable α) (option : α) (spelling : Text) :
    Text → Except UsageProblem (List α × α × Option Text)
  | [] => .ok ([], option, some [])
  | letter :: rest =>
    if table.valueCount option = 0 ∧ isShort spelling then
      match table.option? ['-', letter] with
      | none => .error (.ignoredValue (table.title option) (letter :: rest))
      | some next =>
        if rest.isEmpty then .ok ([option], next, none)
        else
          (letters table next ['-', letter] rest).map fun (flags, last) => (option :: flags, last)
    else .ok ([], option, some (letter :: rest))

/-- The options of one argument, the last one pending. -/
def pending (table : OptionTable α) (option : α) (spelling : Text) (value? : Option Text) :
    Except UsageProblem (Pending α) :=
  let resolved : Except UsageProblem (List α × α × Option Text) :=
    match value? with
    | none => .ok ([], option, none)
    | some attached => table.letters option spelling attached
  match resolved with
  | .error problem => .error problem
  | .ok (flags, last, none) => .ok ⟨flags, last, [], table.valueCount last⟩
  | .ok (flags, last, some value) =>
    match table.valueCount last with
    | 0 => .error (.ignoredValue (table.title last) value)
    | 1 => .ok ⟨flags, last, [value].erase separatorText, 0⟩
    | _ => .error (table.missingValues last)

/-- What happens on a command line, given what is awaited and the option that lacks values,
if any. -/
def events (table : OptionTable α) (awaited : Awaited) (lacking : Option (Pending α)) :
    List (Piece α) → List (Event α)
  | [] =>
    match lacking with
    | some pending => [.problem (table.missingValues pending.option)]
    | none => []
  | ⟨text, kind⟩ :: rest =>
    match lacking, kind with
    | some pending, .operand =>
      let pending := pending.take text
      if pending.missing = 0 then pending.events ++ events table awaited none rest
      else events table awaited (some pending) rest
    | some pending, _ => [.problem (table.missingValues pending.option)]
    | none, .option option spelling value? =>
      match table.pending option spelling value? with
      | .error problem => [.problem problem]
      | .ok pending =>
        if pending.missing = 0 then pending.events ++ events table awaited.afterOther none rest
        else events table awaited.afterOther (some pending) rest
    | none, .unknown => .extra text :: events table awaited.afterOther none rest
    | none, .operand =>
      match awaited with
      | .operand => .operand text [] :: events table .separator none rest
      | .command => [.operand text (rest.map Piece.text)]
      | .separator | .nothing => .extra text :: events table .nothing none rest
    | none, .separator =>
      match awaited with
      | .operand => events table .operand none rest
      | .separator => events table .nothing none rest
      | .command =>
        if rest.isEmpty then [.extra text] else [.operand text (rest.map Piece.text)]
      | .nothing => .extra text :: events table .nothing none rest

end OptionTable

end CommandLine

end TsQuery

import TsQuery.CommandLine.Problem

/-!
# Pieces of a command line

Each argument is an operand, an option in one of its spellings, an option that is not known, or the
separator `--`, after which all arguments are operands. An option can be shortened to any beginning
of a long spelling that no other option shares, a value can be attached to it with an equals sign,
and to an option of one letter without. Arguments that look like a negative number or hold a space
are operands, unless they spell an option.
-/

namespace TsQuery

namespace CommandLine

/-- The options that a command takes: how they are spelled, and how many values follow each. -/
structure OptionTable (α : Type) where
  spellings : List (Text × α)
  valueCount : α → Nat

/-- What an argument is. -/
inductive PieceKind (α : Type)
  | operand
  | separator
  | unknown
  | option (option : α) (spelling : Text) (value? : Option Text)

/-- An argument and what it is. -/
structure Piece (α : Type) where
  text : Text
  kind : PieceKind α

/-- The argument after which there are no options. -/
def separatorText : Text := ['-', '-']

/-- A text before its first equals sign, and what follows the sign if there is one. -/
def cutAtEquals : Text → Text × Option Text
  | [] => ([], none)
  | '=' :: rest => ([], some rest)
  | c :: rest => ((c :: (cutAtEquals rest).1), (cutAtEquals rest).2)

/-- Whether a text is not empty and holds decimal digits only. -/
def isDigits (text : Text) : Bool :=
  !text.isEmpty && text.all fun c => (digitValue? c).isSome

/-- Whether a text is a minus sign and a number with or without fraction; a line feed may follow. -/
def isNegativeNumber : Text → Bool
  | '-' :: rest =>
    let number := if rest.getLast? = some '\n' then rest.dropLast else rest
    isDigits number ||
      match number.dropWhile fun c => (digitValue? c).isSome with
      | '.' :: fraction => isDigits fraction
      | _ => false
  | _ => false

namespace OptionTable

variable {α : Type}

/-- The option of a spelling. -/
def option? (table : OptionTable α) (spelling : Text) : Option α :=
  table.spellings.lookup spelling

/-- The options that a shortened argument can stand for. -/
def candidates (table : OptionTable α) (argument : Text) : List (Text × α × Option Text) :=
  match argument with
  | '-' :: '-' :: _ =>
    let (start, value?) := cutAtEquals argument
    table.spellings.filterMap fun (spelling, option) =>
      if start.isPrefixOf spelling then some (spelling, option, value?) else none
  | '-' :: letter :: attached =>
    table.spellings.filterMap fun (spelling, option) =>
      if spelling = (['-', letter] : Text) then some (spelling, option, some attached)
      else if argument.isPrefixOf spelling then some (spelling, option, none)
      else none
  | _ => []

/-- The option that an argument spells in full, with or without a value after an equals sign. -/
def spelled? (table : OptionTable α) (argument : Text) : Option (PieceKind α) :=
  match table.option? argument, cutAtEquals argument with
  | some option, _ => some (.option option argument none)
  | none, (spelling, some value) =>
    (table.option? spelling).map fun option => .option option spelling (some value)
  | none, (_, none) => none

/-- What an argument before the separator is. -/
def kindOf (table : OptionTable α) (argument : Text) : Except UsageProblem (PieceKind α) :=
  match argument with
  | '-' :: _ :: _ =>
    match table.spelled? argument with
    | some kind => .ok kind
    | none =>
      match table.candidates argument with
      | [] =>
        .ok (if isNegativeNumber argument || argument.contains ' ' then .operand else .unknown)
      | [(spelling, option, value?)] => .ok (.option option spelling value?)
      | several => .error (.ambiguous argument (several.map Prod.fst))
  | _ => .ok .operand

/-- The pieces of a command line. -/
def pieces (table : OptionTable α) : List Text → Except UsageProblem (List (Piece α))
  | [] => .ok []
  | argument :: rest =>
    if argument = separatorText then
      .ok (⟨argument, .separator⟩ :: rest.map fun argument => ⟨argument, .operand⟩)
    else
      match table.kindOf argument with
      | .error problem => .error problem
      | .ok kind => (pieces table rest).map (⟨argument, kind⟩ :: ·)

end OptionTable

end CommandLine

end TsQuery

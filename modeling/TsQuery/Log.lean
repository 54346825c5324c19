import TsQuery.Text.Basic

/-!
# Log records

What is worth telling beside a result is a list of records in the order of their events, each of a
level.
-/

namespace TsQuery

/-- How much a record matters, from least to most. -/
inductive LogLevel
  | debug
  | info
  | warning
  deriving DecidableEq

/-- The name of a level. -/
def LogLevel.name : LogLevel → String
  | debug => "DEBUG"
  | info => "INFO"
  | warning => "WARNING"

/-- A message with its level. -/
structure LogRecord where
  level : LogLevel
  message : Text
  deriving DecidableEq

/-- The records of an event in order. -/
abbrev Log := List LogRecord

/-- The records that are shown: those for debugging only on request. -/
def Log.shown (verbose : Bool) (log : Log) : Log :=
  log.filter fun record => verbose || record.level != .debug

end TsQuery

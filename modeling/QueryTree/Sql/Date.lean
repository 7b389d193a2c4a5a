import QueryTree.DatePattern
import QueryTree.Sql.Fragment
import QueryTree.Tree.Basic

/-!
# Dates

Dates are read by a pattern, shifted by intervals, and written by a pattern, in this order.

- `modifier?`: an interval step as one of the modifiers that take the place of interval types.
- `shiftBy`: a date moved by one step.
- `parseDate`, `formatDate`: dates from texts and texts from dates.
- `DateChange.apply`: all changes of a date.
-/

namespace QueryTree

open Fragment (word literal tokens spaced parens call)

namespace Interval

/-- The unit of one step, as an interval of its own. -/
def Unit.single : Unit → String
  | .microsecond => "1 microsecond"
  | .second => "1 second"
  | .minute => "1 minute"
  | .hour => "1 hour"
  | .day => "1 day"
  | .week => "1 week"
  | .month => "1 month"
  | .quarter => "3 months"
  | .year => "1 year"

/-- The unit of a modifier, and how many of it make up the given unit. -/
def Unit.modifier : Unit → Int × String
  | .microsecond => (1, "seconds")
  | .second => (1, "seconds")
  | .minute => (1, "minutes")
  | .hour => (1, "hours")
  | .day => (1, "days")
  | .week => (7, "days")
  | .month => (1, "months")
  | .quarter => (3, "months")
  | .year => (1, "years")

/-- Microseconds as a fraction of a second, with a sign and six places. -/
def microText (n : Int) : String :=
  Decimal.signedFixed 6 (Decimal.floatOfInt n / 1000000)

/-- The modifier of a signed amount; `none` if it does not fit 64 bits. -/
def modifier? (amount : Int) (unit : Unit) : Option String :=
  let (factor, name) := unit.modifier
  let scaled := amount * factor
  let text := if unit = .microsecond then microText scaled else Decimal.signedText scaled
  if Decimal.isInt64 scaled then some (text ++ " " ++ name) else none

end Interval

/-- Forward or back in time. -/
inductive Shift where
  | add
  | sub
deriving DecidableEq, Repr

/-- The field that asks for a shift. -/
def Shift.field : Shift → String
  | .add => "date.add"
  | .sub => "date.sub"

/-- The amount with the sign of the shift. -/
def Shift.signed (shift : Shift) (amount : Int) : Int :=
  match shift with
  | .add => amount
  | .sub => -amount

/-- A date moved by one step. -/
def shiftBy (dialect : Dialect) (shift : Shift) (f : Fragment) (step : Interval.Step) : Fragment :=
  match dialect with
  | .mysql =>
    let function := match shift with
      | .add => "DATE_ADD"
      | .sub => "DATE_SUB"
    call function [f, spaced ["INTERVAL", .value (.int step.amount), step.unit.keyword]]
  | .postgresql =>
    let operator := match shift with
      | .add => "+"
      | .sub => "-"
    parens (spaced [f, operator, (Fragment.value (.int step.amount)).cast ["INTEGER"], "*",
      "INTERVAL", literal step.unit.single])
  | .sqlite =>
    match Interval.modifier? (shift.signed step.amount) step.unit with
    | some modifier => call "DATETIME" [f, .text modifier]
    | none => f ++ .fail (.invalid shift.field (.amountOutOfRange step.amount))

/-- A text read as a date. -/
def parseDate (dialect : Dialect) (f : Fragment) (pattern : String) : Fragment :=
  match DatePattern.native pattern dialect with
  | .error e => f ++ .fail e
  | .ok native =>
    match dialect with
    | .mysql => call "STR_TO_DATE" [f, .text native]
    | .postgresql => call "TO_TIMESTAMP" [f, .text native]
    | .sqlite => f ++ .fail (.unsupported "fromPattern" dialect)

/-- A date written as a text. Where the format comes first in the text, it is bound in front of
the values of the date. -/
def formatDate (dialect : Dialect) (f : Fragment) (pattern : String) : Fragment :=
  match DatePattern.native pattern dialect with
  | .error e => f ++ .fail e
  | .ok native =>
    match dialect with
    | .mysql => call "DATE_FORMAT" [f, .text native]
    | .postgresql => call "TO_CHAR" [f, .text native]
    | .sqlite => word "STRFTIME" ++ parens (.led (.text native) (tokens [.comma, .space] ++ f))

/-- All changes of a date: read, moved forward, moved back, written. -/
def DateChange.apply (dialect : Dialect) (change : DateChange) (f : Fragment) : Fragment :=
  let f := change.fromPattern.elim f (parseDate dialect f)
  let f := change.add.foldl (shiftBy dialect .add) f
  let f := change.sub.foldl (shiftBy dialect .sub) f
  change.format.elim f (formatDate dialect f)

end QueryTree

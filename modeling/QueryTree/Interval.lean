import QueryTree.Error
import QueryTree.Text.Blank

/-!
# Date intervals

An interval is a list of steps, each an amount and a unit, composed from left to right. As a text
it is a whole number of days, or steps such as `3d -2M`, with or without blanks between them.

- `Unit`, `Step`: units of time and signed amounts of them.
- `tokens?`: the amounts of a text with the letters after them.
- `steps`: the steps that such letters stand for.
- `ofJson`: an interval from a day count or a text.
-/

namespace QueryTree.Interval

open Text Decimal

/-- Units of time. -/
inductive Unit where
  | microsecond
  | second
  | minute
  | hour
  | day
  | week
  | month
  | quarter
  | year
deriving DecidableEq, Repr

namespace Unit

/-- The letter of a unit; minutes are `m`, months are `M`. -/
def symbol : Unit → Char
  | .microsecond => 'f'
  | .second => 's'
  | .minute => 'm'
  | .hour => 'h'
  | .day => 'd'
  | .week => 'w'
  | .month => 'M'
  | .quarter => 'q'
  | .year => 'y'

/-- All units, from the shortest to the longest. -/
def all : List Unit :=
  [.microsecond, .second, .minute, .hour, .day, .week, .month, .quarter, .year]

/-- The unit with a given letter. -/
def ofSymbol? (c : Char) : Option Unit :=
  all.find? fun unit => unit.symbol == c

/-- The keyword of a unit. -/
def keyword : Unit → String
  | .microsecond => "MICROSECOND"
  | .second => "SECOND"
  | .minute => "MINUTE"
  | .hour => "HOUR"
  | .day => "DAY"
  | .week => "WEEK"
  | .month => "MONTH"
  | .quarter => "QUARTER"
  | .year => "YEAR"

end Unit

/-- A signed amount of a unit. -/
structure Step where
  amount : Int
  unit : Unit
deriving DecidableEq, Repr

/-- A whole number of days. -/
def days (amount : Int) : List Step :=
  [⟨amount, .day⟩]

/-- How far the next step has been read: nothing of it, or its sign and digits. -/
inductive Progress where
  | idle
  | amount (negative : Bool) (digits : List Char)

/-- The amount written by a sign and digits, if there are digits and it fits 64 bits. -/
def amount? (negative : Bool) (digits : List Char) : Option Int := do
  let n ← digitsNat? digits
  let signed : Int := if negative then -(n : Int) else n
  if isInt64 signed then some signed else none

/-- The letters that may end a step. -/
def letters : List Char :=
  ['f', 's', 'm', 'h', 'd', 'w', 'M', 'q', 'y']

/-- An amount and the letter after it. -/
abbrev Token := Int × Char

/-- Reads amounts with their letters; blanks may stand in front of each and after the last. -/
def scan : Progress → List Char → Option (List Token)
  | .idle, [] => some []
  | .amount _ _, [] => none
  | .idle, c :: cs =>
    if isLayout c then scan .idle cs
    else if c = '-' then scan (.amount true []) cs
    else if c = '+' then scan (.amount false []) cs
    else if isDigit c then scan (.amount false [c]) cs
    else none
  | .amount negative digits, c :: cs =>
    if isDigit c then scan (.amount negative (digits ++ [c])) cs
    else do
      let amount ← amount? negative digits
      if letters.contains c then
        let rest ← scan .idle cs
        return (amount, c) :: rest
      else none

/-- The amounts of a text with their letters, at least one. -/
def tokens? (cs : List Char) : Option (List Token) :=
  match scan .idle cs with
  | some (token :: tokens) => some (token :: tokens)
  | _ => none

/-- The number of days that a text counts, with blanks around it. -/
def dayCount? (cs : List Char) : Option Int :=
  (parseInt? (trim cs)).filter isInt64

/-- The step of an amount and a letter. -/
def step (field : String) : Token → Except CompileError Step
  | (amount, symbol) =>
    match Unit.ofSymbol? symbol with
    | some unit => .ok ⟨amount, unit⟩
    | none => .error (.invalid field (.unknownUnit symbol))

/-- The steps of a text. -/
def steps (field text : String) : Except CompileError (List Step) :=
  match tokens? text.toList with
  | some tokens => tokens.mapM (step field)
  | none => .error (.invalid field (.notInterval text))

/-- An interval from a day count or a text. -/
def ofJson (field : String) : Json → Except CompileError (List Step)
  | .num n =>
    match n.int64? with
    | some amount => .ok (days amount)
    | none => .error (.invalid field (.notDayCount n))
  | .str text =>
    match dayCount? text.toList with
    | some amount => .ok (days amount)
    | none => steps field text
  | _ => .error (.invalid field (.expected .interval))

end QueryTree.Interval

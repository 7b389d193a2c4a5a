import QueryTree.Decimal.Digits
import QueryTree.Text.Blank

/-!
# Texts that are dates

A text is a date if the whole of it is one of

- a calendar date `Y-m-d`,
- a calendar date and a time of day `Y-m-d H:M:S`,
- the same with a `T` between them and an optional fraction of a second,
- a time of day `H:M:S`,
- a timestamp of fixed width with an offset from universal time.

The first four allow blanks in front of each number. Dates are those of the proleptic Gregorian
calendar.

- `Scan`: readers of a beginning of a text.
- `isDate`: whether a text is a date.
-/

namespace QueryTree.Token

open Text Decimal

/-! ## The calendar -/

/-- Leap years of the Gregorian calendar, in both directions of time. -/
def isLeapYear (year : Int) : Bool :=
  year % 4 == 0 && (year % 100 != 0 || year % 400 == 0)

/-- The number of days of a month. -/
def daysInMonth (year : Int) (month : Nat) : Nat :=
  match month with
  | 2 => if isLeapYear year then 29 else 28
  | 4 | 6 | 9 | 11 => 30
  | _ => 31

/-- Whether a date exists and its year is in the range of the calendar. -/
def isCalendarDate (year : Int) (month day : Nat) : Bool :=
  -262143 ≤ year && year ≤ 262142 && 1 ≤ month && month ≤ 12 && 1 ≤ day
    && day ≤ daysInMonth year month

/-- Whether a time of day exists; a minute may have a leap second. -/
def isTimeOfDay (hour minute second : Nat) : Bool :=
  hour ≤ 23 && minute ≤ 59 && second ≤ 60

/-! ## Readers -/

/-- A reader of the beginning of a text; it gives what it read and leaves the rest. -/
abbrev Scan (α : Type) := StateT (List Char) Option α

namespace Scan

/-- Reads one given character. -/
def char (c : Char) : Scan Unit := fun cs =>
  match cs with
  | d :: rest => if d = c then some ((), rest) else none
  | [] => none

/-- Skips blanks. -/
def blanks : Scan Unit := fun cs =>
  some ((), cs.dropWhile isBlank)

/-- Reads as many digits as there are, at least `least` and at most `most`. -/
def digits (least most : Nat) : Scan Nat := fun cs =>
  let ds := (cs.takeWhile isDigit).take most
  if ds.length < least then none else some (natOfDigits ds, cs.drop ds.length)

/-- Reads all digits, at least one. -/
def allDigits : Scan Nat := fun cs =>
  let ds := cs.takeWhile isDigit
  if ds.isEmpty then none else some (natOfDigits ds, cs.dropWhile isDigit)

/-- A number of one or two digits, after blanks. -/
def short : Scan Nat := do
  blanks
  digits 1 2

/-- A year, after blanks: up to four digits, or any number of digits after a sign. -/
def year : Scan Int := do
  blanks
  match ← get with
  | '-' :: rest =>
    set rest
    return -((← allDigits : Nat) : Int)
  | '+' :: rest =>
    set rest
    return ((← allDigits : Nat) : Int)
  | _ => return ((← digits 1 4 : Nat) : Int)

/-- A calendar date. -/
def date : Scan Unit := do
  let y ← year
  char '-'
  let m ← short
  char '-'
  let d ← short
  guard (isCalendarDate y m d)

/-- A time of day. -/
def time : Scan Unit := do
  let h ← short
  char ':'
  let m ← short
  char ':'
  let s ← short
  guard (isTimeOfDay h m s)

/-- Nothing, or a point and digits. -/
def fraction : Scan Unit := fun cs =>
  match cs with
  | '.' :: rest => if rest.takeWhile isDigit = [] then none else some ((), rest.dropWhile isDigit)
  | cs => some ((), cs)

/-- A date of fixed width. -/
def fixedDate : Scan Unit := do
  let y ← digits 4 4
  char '-'
  let m ← digits 2 2
  char '-'
  let d ← digits 2 2
  guard (isCalendarDate y m d)

/-- A time of day of fixed width. -/
def fixedTime : Scan Unit := do
  let h ← digits 2 2
  char ':'
  let m ← digits 2 2
  char ':'
  let s ← digits 2 2
  guard (isTimeOfDay h m s)

/-- A `T` of either case or one space. -/
def separator : Scan Unit :=
  char 'T' <|> char 't' <|> char ' '

/-- Universal time, or a signed offset of at most a day less a minute. The sign may be the
mathematical minus. -/
def offset : Scan Unit :=
  char 'Z' <|> char 'z' <|> do
    char '+' <|> char '-' <|> char '−'
    let h ← digits 2 2
    char ':'
    let m ← digits 2 2
    guard (h ≤ 23 && m ≤ 59)

/-- A timestamp of fixed width with an offset. -/
def timestamp : Scan Unit := do
  fixedDate
  separator
  fixedTime
  fraction
  offset

/-- A date, blanks or nothing, and a time of day. -/
def dateTime : Scan Unit := do
  date
  time

/-- A date, a `T` and a time of day with an optional fraction. -/
def dateTimeFraction : Scan Unit := do
  date
  char 'T'
  time
  fraction

/-- Whether a reader takes the whole text. -/
def takesAll (scan : Scan Unit) (cs : List Char) : Bool :=
  match scan cs with
  | some ((), []) => true
  | _ => false

end Scan

/-- Whether a text is a date or a time. -/
def isDate (cs : List Char) : Bool :=
  Scan.date.takesAll cs || Scan.dateTime.takesAll cs || Scan.dateTimeFraction.takesAll cs
    || Scan.time.takesAll cs || Scan.timestamp.takesAll cs

end QueryTree.Token

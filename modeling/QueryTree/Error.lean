import QueryTree.Dialect.Basic
import QueryTree.Cipher.Mode

/-!
# Errors of a compilation

Every error ends the compilation that it arises in. An error keeps its cause; the wording of all
of them is in `CompileError.message`.

- `Shape`: what a field should have held.
- `Fault`: what is wrong with the value of a field.
- `CompileError`: the four kinds of error.
-/

namespace QueryTree

/-- What a field should have held. -/
inductive Shape where
  | object
  | objects
  | joins
  | columnNames
  | condition
  | conditions
  | side
  | rounding
  | nonEmptyList
  | branches
  | interval
  | string
  | strings
  | stringList
  | boolean
  | rowCount
  | subquery
  | cell
deriving DecidableEq, Repr

/-- Wording of an expectation. -/
def Shape.message : Shape → String
  | .object => "an object"
  | .objects => "an object or a list of objects"
  | .joins => "a list of join objects"
  | .columnNames => "column names"
  | .condition => "a condition object"
  | .conditions => "a list of condition objects"
  | .side => "a boolean or side"
  | .rounding => "a mode or digit count"
  | .nonEmptyList => "a non-empty list"
  | .branches => "a non-empty list of \x7bwhen, then\x7d"
  | .interval => "a day count or interval tokens"
  | .string => "a string"
  | .strings => "strings"
  | .stringList => "a list of strings"
  | .boolean => "a boolean"
  | .rowCount => "a row count"
  | .subquery => "a subquery"
  | .cell => "a scalar or a wrapper object"

/-- What is wrong with the value of a field. -/
inductive Fault where
  | expected (shape : Shape)
  | decode (error : DecodeError)
  | emptyList
  | nestedList
  | strayList
  | strayStar
  | emptyCondition
  | emptyIn
  | notSide (text : String)
  | notRounding (text : String)
  | notDigitCount (n : Number)
  | notRowCount (n : Number)
  | notRowCountText (text : String)
  | notDayCount (n : Number)
  | notInterval (text : String)
  | unknownUnit (symbol : Char)
  | noValue
  | amountOutOfRange (n : Int)
  | modeConflict (wanted current : Cipher.Mode)
  | notDigestSize (n : Nat)
  | severalRows
  | upsertWithFilter
  | unevenRow
deriving DecidableEq, Repr

/-- Wording of a fault. -/
def Fault.message : Fault → String
  | .expected shape => "expected " ++ shape.message
  | .decode error => error.message
  | .emptyList => "empty list"
  | .nestedList => "nested lists are not select items"
  | .strayList => "a list is only allowed as an IN operand or argument list"
  | .strayStar => "only '*' and 'name.*' may contain a star"
  | .emptyCondition => "empty condition object"
  | .emptyIn => "IN list must not be empty"
  | .notSide text => s!"'{text}' is not one of left, right, both"
  | .notRounding text => s!"'{text}' is not ceil, floor, round or a digit count"
  | .notDigitCount n => s!"{n.text} is not a digit count"
  | .notRowCount n => s!"{n.text} is not a row count"
  | .notRowCountText text => s!"'{text}' is not a row count"
  | .notDayCount n => s!"{n.text} is not a whole day count"
  | .notInterval text =>
    s!"'{text}' is not a list of <n><unit> tokens (units f s m h d w M q y)"
  | .unknownUnit symbol => s!"unknown unit '{String.singleton symbol}'"
  | .noValue => "combinators do not produce a value"
  | .amountOutOfRange n => s!"interval amount {Decimal.intText n} out of range"
  | .modeConflict wanted current =>
    s!"'{wanted.name}' conflicts with '{current.name}' already used in this statement"
  | .notDigestSize n => s!"{Decimal.natText n} is not one of 224, 256, 384, 512"
  | .severalRows => "an UPDATE takes a single object"
  | .upsertWithFilter => "cannot be combined with where"
  | .unevenRow => "every row must have the same columns as the first row"

/-- Errors of a compilation. -/
inductive CompileError where
  /-- A required part is absent. -/
  | missing (param context : String)
  /-- A field holds a value outside its allowed set or of the wrong shape. -/
  | invalid (field : String) (fault : Fault)
  /-- The dialect has no equivalent of a feature. -/
  | unsupported (feature : String) (dialect : Dialect)
  /-- A key is not recognised in its position. -/
  | unknown (key position : String)
deriving DecidableEq, Repr

/-- Wording of an error. -/
def CompileError.message : CompileError → String
  | .missing param context => s!"Missing parameter '{param}' in {context}"
  | .invalid field fault => s!"Invalid value for '{field}': {fault.message}"
  | .unsupported feature dialect => s!"'{feature}' is not supported by {dialect.name}"
  | .unknown key position => s!"Unknown signature '{key}' in {position}"

end QueryTree

import QueryTree.Decode

/-!
# Options of query trees

The closed sets of names that may stand in a query tree, with their spelling in SQL.

- `Comparator`, `Junction`: comparisons and how they are joined.
- `CastType`, `Charset`, `TextCase`, `Side`, `Rounding`, `Arithmetic`: steps of expressions.
- `AggregateKind`: the aggregate functions.
- `JoinKind`, `SortOrder`: parts of queries.
- `WrapperKind`, `Combinator`, `Signature`: what the key of an object in expression position
  stands for.
-/

namespace QueryTree

/-! ## Comparisons -/

/-- The comparators of a condition. -/
inductive Comparator where
  | eq
  | notEq
  | oneOf
  | noneOf
  | lt
  | gt
  | ltEq
  | gtEq
  | like
  | notLike
  | startLike
  | endLike
  | notStartLike
  | notEndLike
  | hasRows
  | hasNoRows
deriving DecidableEq, Repr

namespace Comparator

instance : Named Comparator where
  names := [("eq", .eq), ("notEq", .notEq), ("in", .oneOf), ("notIn", .noneOf), ("lt", .lt),
    ("gt", .gt), ("ltEq", .ltEq), ("gtEq", .gtEq), ("like", .like), ("notLike", .notLike),
    ("startLike", .startLike), ("endLike", .endLike), ("notStartLike", .notStartLike),
    ("notEndLike", .notEndLike), ("exists", .hasRows), ("notExists", .hasNoRows)]

/-- The words of the SQL operator. -/
def words : Comparator → List String
  | .eq => ["="]
  | .notEq => ["!="]
  | .lt => ["<"]
  | .gt => [">"]
  | .ltEq => ["<="]
  | .gtEq => [">="]
  | .oneOf => ["IN"]
  | .noneOf => ["NOT", "IN"]
  | .like | .startLike | .endLike => ["LIKE"]
  | .notLike | .notStartLike | .notEndLike => ["NOT", "LIKE"]
  | .hasRows => ["EXISTS"]
  | .hasNoRows => ["NOT", "EXISTS"]

/-- The SQL operator. -/
def operator (comparator : Comparator) : String :=
  String.intercalate " " comparator.words

/-- Whether a text match is open at its beginning and at its end; `none` for other comparisons. -/
def wildcards : Comparator → Option (Bool × Bool)
  | .like | .notLike => some (true, true)
  | .startLike | .notStartLike => some (false, true)
  | .endLike | .notEndLike => some (true, false)
  | _ => none

end Comparator

/-- How sibling conditions are joined. -/
inductive Junction where
  | and
  | or
deriving DecidableEq, Repr, Inhabited

namespace Junction

instance : Named Junction where
  names := [("and", .and), ("or", .or)]

/-- The connective. -/
def keyword : Junction → String
  | .and => "AND"
  | .or => "OR"

end Junction

/-! ## Steps of expressions -/

/-- The types that an expression may be converted to. -/
inductive CastType where
  | char
  | nchar
  | text
  | date
  | dateTime
  | time
  | timestamp
  | signed
  | unsigned
  | integer
  | decimal
  | real
  | float
  | binary
  | json
  | boolean
deriving DecidableEq, Repr

namespace CastType

instance : Named CastType where
  names := [("char", .char), ("nchar", .nchar), ("text", .text), ("date", .date),
    ("dateTime", .dateTime), ("time", .time), ("timestamp", .timestamp), ("signed", .signed),
    ("unsigned", .unsigned), ("integer", .integer), ("decimal", .decimal), ("real", .real),
    ("float", .float), ("binary", .binary), ("json", .json), ("boolean", .boolean)]

/-- The name of a type in messages. -/
def label : CastType → String
  | .char => "char"
  | .nchar => "nchar"
  | .text => "text"
  | .date => "date"
  | .dateTime => "datetime"
  | .time => "time"
  | .timestamp => "timestamp"
  | .signed => "signed"
  | .unsigned => "unsigned"
  | .integer => "integer"
  | .decimal => "decimal"
  | .real => "real"
  | .float => "float"
  | .binary => "binary"
  | .json => "json"
  | .boolean => "boolean"

end CastType

/-- Character sets. -/
inductive Charset where
  | utf8mb4
  | utf8
  | latin1
  | ascii
  | utf16
  | utf32
  | binary
deriving DecidableEq, Repr

namespace Charset

/-- The name of a character set. -/
def name : Charset → String
  | .utf8mb4 => "utf8mb4"
  | .utf8 => "utf8"
  | .latin1 => "latin1"
  | .ascii => "ascii"
  | .utf16 => "utf16"
  | .utf32 => "utf32"
  | .binary => "binary"

instance : Named Charset where
  names := [Charset.utf8mb4, .utf8, .latin1, .ascii, .utf16, .utf32, .binary].map fun charset =>
    (charset.name, charset)

end Charset

/-- Upper or lower case. -/
inductive TextCase where
  | upper
  | lower
deriving DecidableEq, Repr

namespace TextCase

instance : Named TextCase where
  names := [("upper", .upper), ("lower", .lower)]

/-- The function that changes the case. -/
def function : TextCase → String
  | .upper => "UPPER"
  | .lower => "LOWER"

end TextCase

/-- The sides of a text that blanks are taken from. -/
inductive Side where
  | both
  | left
  | right
deriving DecidableEq, Repr

namespace Side

/-- The side with a given name. -/
def ofName? : String → Option Side
  | "left" => some .left
  | "right" => some .right
  | "both" => some .both
  | _ => none

/-- The function that takes the blanks off. -/
def function : Side → String
  | .both => "TRIM"
  | .left => "LTRIM"
  | .right => "RTRIM"

end Side

/-- How a number is rounded. -/
inductive Rounding where
  | ceil
  | floor
  | round
  | digits (n : Nat)
deriving DecidableEq, Repr

/-- The operators of arithmetic steps. -/
inductive Arithmetic where
  | divide
  | modulo
  | multiply
  | add
  | subtract
deriving DecidableEq, Repr

/-- The SQL operator. -/
def Arithmetic.operator : Arithmetic → String
  | .divide => "/"
  | .modulo => "%"
  | .multiply => "*"
  | .add => "+"
  | .subtract => "-"

/-- The aggregate functions. -/
inductive AggregateKind where
  | sum
  | avg
  | count
  | min
  | max
deriving DecidableEq, Repr

namespace AggregateKind

/-- The key that selects an aggregate. -/
def key : AggregateKind → String
  | .sum => "sum"
  | .avg => "avg"
  | .count => "count"
  | .min => "min"
  | .max => "max"

/-- The SQL function. -/
def function : AggregateKind → String
  | .sum => "SUM"
  | .avg => "AVG"
  | .count => "COUNT"
  | .min => "MIN"
  | .max => "MAX"

instance : Named AggregateKind where
  names := [AggregateKind.sum, .avg, .count, .min, .max].map fun kind => (kind.key, kind)

end AggregateKind

/-! ## Parts of queries -/

/-- The kinds of join. -/
inductive JoinKind where
  | inner
  | left
  | right
  | cross
  | fullOuter
deriving DecidableEq, Repr, Inhabited

namespace JoinKind

instance : Named JoinKind where
  names := [("inner", .inner), ("left", .left), ("right", .right), ("cross", .cross),
    ("fullOuter", .fullOuter)]

/-- The words that begin a join. -/
def words : JoinKind → List String
  | .inner => ["JOIN"]
  | .left => ["LEFT", "JOIN"]
  | .right => ["RIGHT", "JOIN"]
  | .cross => ["CROSS", "JOIN"]
  | .fullOuter => ["FULL", "OUTER", "JOIN"]

end JoinKind

/-- The directions of a sort. -/
inductive SortOrder where
  | ascending
  | descending
deriving DecidableEq, Repr

namespace SortOrder

instance : Named SortOrder where
  names := [("ASC", .ascending), ("asc", .ascending), ("DESC", .descending),
    ("desc", .descending)]

/-- The keyword of a direction. -/
def keyword : SortOrder → String
  | .ascending => "ASC"
  | .descending => "DESC"

end SortOrder

/-! ## Signatures -/

/-- The kinds of wrapper, each an expression of its own shape. -/
inductive WrapperKind where
  | string
  | number
  | date
  | concat
  | choice
  | cases
  | json
  | array
  | refer
  | aggregate (kind : AggregateKind)
deriving DecidableEq, Repr

/-- The key that selects a kind of wrapper. -/
def WrapperKind.key : WrapperKind → String
  | .string => "str"
  | .number => "num"
  | .date => "date"
  | .concat => "concat"
  | .choice => "if"
  | .cases => "case"
  | .json => "json"
  | .array => "array"
  | .refer => "refer"
  | .aggregate kind => kind.key

/-- What joins or bounds conditions instead of giving a value. -/
inductive Combinator where
  | between
  | all
  | any
deriving DecidableEq, Repr

/-- The key that selects a combinator. -/
def Combinator.key : Combinator → String
  | .between => "between"
  | .all => "and"
  | .any => "or"

/-- What a reserved key stands for. -/
inductive Signature where
  | wrapper (kind : WrapperKind)
  | combinator (c : Combinator)
deriving DecidableEq, Repr

namespace Signature

/-- The reserved key. -/
def key : Signature → String
  | .wrapper kind => kind.key
  | .combinator c => c.key

/-- All reserved keys with what they stand for. -/
def table : List (String × Signature) :=
  ([WrapperKind.string, .number, .date, .concat, .choice, .cases, .json, .array, .refer].map
      fun kind => (kind.key, wrapper kind))
    ++ ([Combinator.between, .all, .any].map fun c => (c.key, combinator c))
    ++ ((Named.names (α := AggregateKind)).map fun (key, kind) => (key, wrapper (.aggregate kind)))

/-- What a key stands for, if it is reserved. -/
def ofKey? (key : String) : Option Signature :=
  table.lookup key

/-- Whether a reserved key names a combinator. -/
def isCombinator : Signature → Bool
  | .combinator _ => true
  | .wrapper _ => false

end Signature

end QueryTree

import QueryTree.Sql.Fragment
import QueryTree.Tree.Options

/-!
# Spelling by dialect

What the dialects write differently for the same thing.

- `Dialect.textOperand`, `Dialect.concatenate`: bound values used as text.
- `Dialect.typeWords`, `castTo`: conversions.
- `Dialect.jsonPath`, `jsonExtract`, `jsonContains?` and the JSON functions.
- `Dialect.unboundedLimit`: what stands for no limit in front of an offset.
-/

namespace QueryTree

open Fragment (operated parens call)

namespace Dialect

/-! ## Text -/

/-- A bound value used as text; its type is stated where it would not be inferred. -/
def textOperand (dialect : Dialect) (f : Fragment) : Fragment :=
  match dialect with
  | .postgresql => f.cast ["TEXT"]
  | .mysql | .sqlite => f

/-- Texts put together. -/
def concatenate (dialect : Dialect) (parts : List Fragment) : Fragment :=
  match dialect with
  | .mysql => call "CONCAT" parts
  | .postgresql | .sqlite => operated "||" parts

/-- The function that replaces null. -/
def ifNullFunction : Dialect → String
  | .mysql => "IFNULL"
  | .postgresql | .sqlite => "COALESCE"

/-- The function that takes a part of a text. -/
def substrFunction : Dialect → String
  | .mysql => "SUBSTRING"
  | .postgresql | .sqlite => "SUBSTR"

/-! ## Types -/

/-- The words of a type; `none` if the dialect has no equivalent. -/
def typeWords : Dialect → CastType → Option (List String)
  | .mysql, .char | .mysql, .text => some ["CHAR"]
  | .mysql, .nchar => some ["NCHAR"]
  | .mysql, .date => some ["DATE"]
  | .mysql, .dateTime | .mysql, .timestamp => some ["DATETIME"]
  | .mysql, .time => some ["TIME"]
  | .mysql, .signed | .mysql, .integer => some ["SIGNED"]
  | .mysql, .unsigned => some ["UNSIGNED"]
  | .mysql, .decimal => some ["DECIMAL"]
  | .mysql, .real => some ["DOUBLE"]
  | .mysql, .float => some ["FLOAT"]
  | .mysql, .binary => some ["BINARY"]
  | .mysql, .json => some ["JSON"]
  | .mysql, .boolean => none
  | .postgresql, .char => some ["CHAR"]
  | .postgresql, .nchar => some ["NCHAR"]
  | .postgresql, .text => some ["TEXT"]
  | .postgresql, .date => some ["DATE"]
  | .postgresql, .dateTime | .postgresql, .timestamp => some ["TIMESTAMP"]
  | .postgresql, .time => some ["TIME"]
  | .postgresql, .signed => some ["BIGINT"]
  | .postgresql, .integer => some ["INTEGER"]
  | .postgresql, .decimal => some ["NUMERIC"]
  | .postgresql, .real => some ["REAL"]
  | .postgresql, .float => some ["DOUBLE", "PRECISION"]
  | .postgresql, .binary => some ["BYTEA"]
  | .postgresql, .json => some ["JSONB"]
  | .postgresql, .boolean => some ["BOOLEAN"]
  | .postgresql, .unsigned => none
  | .sqlite, .char | .sqlite, .nchar | .sqlite, .text => some ["TEXT"]
  | .sqlite, .signed | .sqlite, .integer => some ["INTEGER"]
  | .sqlite, .decimal => some ["NUMERIC"]
  | .sqlite, .real | .sqlite, .float => some ["REAL"]
  | .sqlite, .binary => some ["BLOB"]
  | .sqlite, .date | .sqlite, .dateTime | .sqlite, .time | .sqlite, .timestamp
  | .sqlite, .unsigned | .sqlite, .json | .sqlite, .boolean => none

/-- Converts a fragment to a type. -/
def castTo (dialect : Dialect) (f : Fragment) (type : CastType) : Fragment :=
  match dialect.typeWords type with
  | some type => f.cast type
  | none => f ++ .fail (.unsupported ("cast to " ++ type.label) dialect)

/-- Converts a fragment to a type, if one is given. -/
def castOptional (dialect : Dialect) (f : Fragment) : Option CastType → Fragment
  | some type => dialect.castTo f type
  | none => f

/-! ## JSON -/

/-- The function that builds an object. -/
def jsonObjectFunction : Dialect → String
  | .postgresql => "json_build_object"
  | .mysql | .sqlite => "JSON_OBJECT"

/-- The function that builds an array. -/
def jsonArrayFunction : Dialect → String
  | .postgresql => "json_build_array"
  | .mysql | .sqlite => "JSON_ARRAY"

/-- The function that collects values to an array. -/
def jsonAggregateFunction : Dialect → String
  | .mysql => "JSON_ARRAYAGG"
  | .postgresql => "json_agg"
  | .sqlite => "JSON_GROUP_ARRAY"

/-- The bound form of a dotted path into a JSON value. -/
def jsonPath (dialect : Dialect) (path : String) : String :=
  match dialect with
  | .postgresql =>
    String.ofList ('\x7b' :: path.toList.map (fun c => if c = '.' then ',' else c) ++ ['\x7d'])
  | .mysql | .sqlite => "$." ++ path

/-- The part of a JSON value at a path. -/
def jsonExtract (dialect : Dialect) (f path : Fragment) : Fragment :=
  match dialect with
  | .postgresql => parens (operated "#>" [f.cast ["JSONB"], path.cast ["TEXT[]"]])
  | .mysql | .sqlite => call "JSON_EXTRACT" [f, path]

/-- Whether a JSON value contains another; `none` if the dialect has no such test. -/
def jsonContains? (dialect : Dialect) (f candidate : Fragment) : Option Fragment :=
  match dialect with
  | .mysql => some (call "JSON_CONTAINS" [f, candidate])
  | .postgresql => some (operated "@>" [f.cast ["JSONB"], candidate.cast ["JSONB"]])
  | .sqlite => none

/-! ## Limits -/

/-- The limit written in front of an offset that stands alone, where one is required. -/
def unboundedLimit : Dialect → Option String
  | .mysql => some "18446744073709551615"
  | .postgresql => none
  | .sqlite => some "-1"

end Dialect

end QueryTree

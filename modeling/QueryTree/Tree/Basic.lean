import QueryTree.Cipher.Settings
import QueryTree.Interval
import QueryTree.Tree.Options

/-!
# Query trees

A statement is described by a tree of expressions, conditions and queries.

- `Expr`: scalars, texts, lists, wrappers, and conditions used as values.
- `Condition`, `Entry`: conditions as ordered entries that the surrounding junction joins.
- `Wrapper`, `Core`: an expression of a given shape, an optional comparison of it, and the alias
  that it has as a select item.
- `StringStep`, `NumberStep`: what is done to a value, one step after the other.
- `Query`, `Join`: queries and what they are joined with.
- `Write`, `Delete`: the statements that change data.
-/

namespace QueryTree

open Cipher (Settings)

/-- What is done to the value of a wrapper before its steps. -/
structure Preparation where
  /-- Settings of the column; given, they turn decryption on. -/
  decrypt : Option Settings := none
  /-- Settings for all decryption inside the value. -/
  encryption : Option Settings := none
  cast : Option CastType := none
deriving DecidableEq, Repr

/-- How a date is read, shifted and written. -/
structure DateChange where
  fromPattern : Option String := none
  add : List Interval.Step := []
  sub : List Interval.Step := []
  format : Option String := none
deriving DecidableEq, Repr

/-- What is done with a JSON value that is built. -/
structure JsonOptions where
  /-- Built by the array key rather than the object key. -/
  isArray : Bool
  aggregate : Bool
  extract : Option String
  contains : Option Json
deriving Repr

mutual

/-- An expression. -/
inductive Expr where
  | null
  | bool (b : Bool)
  | number (n : Number)
  /-- A column, a path, a constant or a literal; its position decides. -/
  | text (token : String)
  | list (items : List Expr)
  | wrapper (w : Wrapper)
  /-- A condition used as a value. -/
  | condition (entries : List Entry)

/-- An entry of a condition. -/
inductive Entry where
  | wrapper (w : Wrapper)
  | all (conditions : List (List Entry))
  | any (conditions : List (List Entry))
  /-- The enclosing column lies between two bounds. -/
  | between (low high : Expr)
  /-- A comparison of the enclosing column. -/
  | compare (comparator : Comparator) (operand : Expr)
  /-- A column and what it is compared with. -/
  | column (key : String) (operand : Expr)

/-- An expression of a given shape with its finishing steps. -/
structure Wrapper where
  core : Core
  compare : Option (List Entry)
  alias? : Option String

/-- The shapes of expressions. -/
inductive Core where
  | string (value : Expr) (prepare : Preparation) (steps : List StringStep)
  | number (value : Expr) (prepare : Preparation) (steps : List NumberStep)
  | date (value : Expr) (prepare : Preparation) (change : DateChange)
  | concat (values : List Expr) (separator : Option String) (cast : Option CastType)
      (encryption : Option Settings) (steps : List StringStep)
  | choice (check : List Entry) (yes no : Expr)
  | cases (branches : List (List Entry × Expr)) (otherwise : Option Expr)
  | json (options : JsonOptions) (body : JsonBody) (source : Option Query)
  | refer (query : Query)
  | aggregate (kind : AggregateKind) (value : Expr) (distinct : Bool) (ifNull : Option Expr)
      (cast : Option CastType) (encryption : Option Settings)
  /-- A combinator in the place of a value; entries have their own. -/
  | all (conditions : List (List Entry))
  | any (conditions : List (List Entry))
  | between (low high : Expr)

/-- A step that changes a text. -/
inductive StringStep where
  | trim (side : Side)
  | substr (start : Expr) (length : Option Expr)
  | padding (left right : Option Pad)
  | textCase (kind : TextCase)
  | reverse
  | replace (target replacement : Expr)
  | encoding (charset : Charset)

/-- Padding on one side, up to a length. -/
structure Pad where
  length : Expr
  pattern : Option Expr

/-- A step that changes a number. -/
inductive NumberStep where
  | power (exponent : Expr)
  | arithmetic (operation : Arithmetic) (operand : Expr)
  | rounding (rounding : Rounding)

/-- The parts of a JSON value to build. -/
inductive JsonBody where
  | object (fields : List (String × Expr))
  | array (items : List Expr)
  | single (value : Expr)

/-- A query; no select items means all columns. -/
structure Query where
  table : String
  alias? : Option String
  select : List Expr
  joins : List Join
  filter : Option (List Entry)
  junction : Junction
  groupBy : List Expr
  having : Option (List Entry)
  orderBy : List (String × SortOrder)
  limit : Option Nat
  offset : Option Nat
  encryption : Option Settings

/-- How the rows of a join are matched: not at all, by columns of the same name, or by pairs of a
column of the outer query and what it is compared with. -/
inductive Matching where
  | unmatched
  | shared (columns : List String)
  | pairs (pairs : List (String × Expr))

/-- A joined table or query. -/
structure Join where
  kind : JoinKind
  matching : Matching
  query : Query

end

/-- Entries in order, joined by the junction that surrounds them. -/
abbrev Condition := List Entry

/-- What a wrapper is the wrapper of. -/
def Core.kind : Core → Signature
  | .string .. => .wrapper .string
  | .number .. => .wrapper .number
  | .date .. => .wrapper .date
  | .concat .. => .wrapper .concat
  | .choice .. => .wrapper .choice
  | .cases .. => .wrapper .cases
  | .json options .. => .wrapper (if options.isArray then .array else .json)
  | .refer _ => .wrapper .refer
  | .aggregate kind .. => .wrapper (.aggregate kind)
  | .all _ => .combinator .all
  | .any _ => .combinator .any
  | .between .. => .combinator .between

/-- The combinator of an entry, if it is one. -/
def Entry.combinator? : Entry → Option Combinator
  | .all _ => some .all
  | .any _ => some .any
  | .between .. => some .between
  | _ => none

/-- Whether there is more than a bare table, so that a join needs a subquery. -/
def Query.isDerived (q : Query) : Bool :=
  !q.select.isEmpty || !q.joins.isEmpty || q.filter.isSome || !q.groupBy.isEmpty
    || q.having.isSome || !q.orderBy.isEmpty || q.limit.isSome || q.offset.isSome

/-- The name that the columns of a query go by. -/
def Query.qualifier (q : Query) : String :=
  q.alias?.getD q.table

/-- Columns and their values. -/
abbrev Row := List (String × Expr)

/-- An insertion of rows or, with a filter, an update by one row. -/
structure Write where
  table : String
  alias? : Option String
  rows : List Row
  filter : Option Condition
  junction : Junction
  upsert : Row
  indexes : List String
  encrypt : List (String × Settings)
  encryption : Option Settings

/-- A deletion. -/
structure Delete where
  table : String
  alias? : Option String
  filter : Option Condition
  junction : Junction
  encryption : Option Settings

end QueryTree

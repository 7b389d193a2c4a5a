import QueryTree.Decode

/-!
# Dialects

The three SQL dialects and how their placeholders work.
-/

namespace QueryTree

/-- The SQL dialects. -/
inductive Dialect where
  | mysql
  | postgresql
  | sqlite
deriving DecidableEq, Repr, Inhabited

namespace Dialect

/-- The name shown in messages and results. -/
def name : Dialect → String
  | .mysql => "mysql"
  | .postgresql => "postgresql"
  | .sqlite => "sqlite"

instance : Named Dialect where
  names := [("mysql", .mysql), ("postgres", .postgresql), ("postgresql", .postgresql),
    ("sqlite", .sqlite)]

/-- Whether placeholders are bound by their position in the text. -/
def isPositional : Dialect → Bool
  | .postgresql => false
  | .mysql | .sqlite => true

/-- Whether identifiers and aliases are bound like values instead of being written out. -/
def bindsNames : Dialect → Bool
  | .mysql => true
  | .postgresql | .sqlite => false

end Dialect

end QueryTree

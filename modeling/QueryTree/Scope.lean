import QueryTree.Tree.Basic

/-!
# Scopes

What is in sight where a fragment is written. A scope is never changed, only narrowed on the way
down.

- `Scope`: the dialect, the alias that qualifies bare columns, the names that values may refer to,
  and the encryption settings around.
- `Scope.enter`, `Scope.target`: the scope inside a query or on a bare table.
- `Scope.withCall`: the settings that a wrapper gives.
- `Scope.resolve`: the key for a column.
-/

namespace QueryTree

open Cipher (Settings Key)

/-- The encryption settings around a column. -/
structure Layers where
  call : Option Settings := none
  query : Option Settings := none
  model : Option Settings := none
deriving DecidableEq, Repr

/-- What is in sight where a fragment is written. -/
structure Scope where
  dialect : Dialect
  /-- Qualifies bare columns. -/
  alias? : Option String := none
  /-- Tables and aliases of this query, of its joins and of every query around. -/
  known : List String := []
  layers : Layers := {}
deriving DecidableEq, Repr

namespace Scope

/-- The scope of a whole statement. -/
def outermost (dialect : Dialect) (model : Option Settings) : Scope :=
  { dialect, layers := { model } }

/-- Names that a table or query goes by. -/
def namesOf (table : String) (alias? : Option String) : List String :=
  table :: alias?.toList

/-- Settings of a query, if it has any. -/
def withQuery (scope : Scope) : Option Settings → Scope
  | some settings => { scope with layers := { scope.layers with query := some settings } }
  | none => scope

/-- Settings of a wrapper, if it has any. -/
def withCall (scope : Scope) : Option Settings → Scope
  | some settings => { scope with layers := { scope.layers with call := some settings } }
  | none => scope

/-- The scope on a bare table. -/
def target (scope : Scope) (table : String) (alias? : Option String)
    (settings : Option Settings) : Scope :=
  { scope with alias?, known := scope.known ++ namesOf table alias? }.withQuery settings

/-- The scope inside a query: its alias qualifies bare columns, and the names around stay in
sight. -/
def enter (scope : Scope) (table : String) (alias? : Option String) (joins : List Join)
    (settings : Option Settings) : Scope :=
  let joined := joins.flatMap fun join => namesOf join.query.table join.query.alias?
  { scope with alias?, known := scope.known ++ namesOf table alias? ++ joined }.withQuery settings

/-- Whether values may refer to a name. -/
def knows (scope : Scope) (name : String) : Bool :=
  scope.known.contains name

/-- A column qualified by the alias, unless it is a path already. -/
def qualify (scope : Scope) (column : String) : String :=
  match scope.alias? with
  | some name => if column.toList.contains '.' then column else name ++ "." ++ column
  | none => column

/-- The key for a column with settings of its own. -/
def resolve (scope : Scope) (column : Option Settings) : Except CompileError Key :=
  Cipher.resolve column scope.layers.call scope.layers.query scope.layers.model

end Scope

end QueryTree

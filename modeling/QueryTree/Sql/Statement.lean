import QueryTree.Sql.Query

/-!
# Statements that change data

Texts given as data are always bound as they are; only wrappers are compiled to expressions.

- `Write.cell`: the value of a column, encrypted if the statement says so.
- `Write.fragment`: an insertion of rows, or an update if there is a filter.
- `Delete.fragment`: a deletion; in safe mode it needs a filter.
-/

namespace QueryTree

open Fragment (spaced commas parens)

/-- The parts of a condition that may be absent. -/
def filterFragments (junction : Junction) (scope : Scope) : Option Condition → List Fragment
  | some entries => entryFragments none junction scope entries
  | none => []

namespace Write

/-- The value of a column before it is encrypted. -/
def plainCell (scope : Scope) (column : String) : Expr → Fragment
  | .text s => .text s
  | .list _ | .condition _ => .fail (.invalid ("save.data." ++ column) (.expected .cell))
  | e => e.fragment .value scope

/-- The value of a column. -/
def cell (write : Write) (scope : Scope) (column : String) (e : Expr) : Fragment :=
  match write.encrypt.lookup column with
  | some settings => scope.cipher .encrypt settings (plainCell scope column e)
  | none => plainCell scope column e

/-- Columns set to values. -/
def assignments (write : Write) (scope : Scope) (row : Row) : Fragment :=
  commas (row.map fun (column, e) => equals (.path column) (write.cell scope column e))

/-- A row without the columns of the first one. -/
def unevenRow (index : Nat) : Fragment :=
  .fail (.invalid ("save.data[" ++ Decimal.natText index ++ "]") .unevenRow)

/-- A row of values, in the order of the columns of the first row. -/
def tuple (write : Write) (scope : Scope) (first : Row) (index : Nat) (row : Row) : Fragment :=
  if row.length = first.length then
    parens (commas (first.map fun (column, _) =>
      match row.lookup column with
      | some e => write.cell scope column e
      | none => unevenRow index))
  else unevenRow index

/-- What happens to rows that are there already. -/
def upsertFragment (write : Write) (scope : Scope) : Fragment :=
  if write.upsert.isEmpty then .empty
  else
    match scope.dialect with
    | .mysql => clause ["ON", "DUPLICATE", "KEY", "UPDATE"] (write.assignments scope write.upsert)
    | .postgresql | .sqlite =>
      if write.indexes.isEmpty then .fail (.missing "indexes" "save.upsert")
      else
        clause ["ON", "CONFLICT"] (spaced [parens (commas (write.indexes.map Fragment.path)), "DO",
          "UPDATE", "SET", write.assignments scope write.upsert])

/-- An insertion. The table has no alias, so that bare columns stay as they are. -/
def insertFragment (write : Write) (outer : Scope) : Fragment :=
  match write.rows with
  | [] => .fail (.missing "data" "save")
  | first :: _ =>
    let scope := outer.target write.table none write.encryption
    spaced ["INSERT", "INTO", .path write.table,
        parens (commas (first.map fun (column, _) => Fragment.path column)), "VALUES",
        commas (write.rows.mapIdx (write.tuple scope first))]
      ++ write.upsertFragment scope

/-- An update by a single row. -/
def updateFragment (write : Write) (outer : Scope) : Fragment :=
  match write.rows with
  | [row] =>
    if write.upsert.isEmpty then
      let scope := outer.target write.table write.alias? write.encryption
      spaced ["UPDATE", tableFragment write.table write.alias?, "SET", write.assignments scope row]
        ++ conditionClause "WHERE" write.junction
          (filterFragments write.junction scope write.filter)
    else .fail (.invalid "save.upsert" .upsertWithFilter)
  | _ => .fail (.invalid "save.data" .severalRows)

/-- An update if there is a filter, even an empty one; else an insertion. -/
def fragment (write : Write) (outer : Scope) : Fragment :=
  if write.filter.isSome then write.updateFragment outer else write.insertFragment outer

end Write

/-- A deletion; in safe mode a filter with an entry is needed. -/
def Delete.fragment (delete : Delete) (safeMode : Bool) (outer : Scope) : Fragment :=
  if safeMode && (delete.filter.getD []).isEmpty then
    .fail (.missing "where" s!"delete from '{delete.table}' (safe mode)")
  else
    let scope := outer.target delete.table delete.alias? delete.encryption
    spaced ["DELETE", "FROM", tableFragment delete.table delete.alias?]
      ++ conditionClause "WHERE" delete.junction
        (filterFragments delete.junction scope delete.filter)

end QueryTree

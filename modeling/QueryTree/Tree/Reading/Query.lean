import QueryTree.Tree.Record

/-!
# Reading of queries and joins

The parts of a query are read in a fixed order, so that of two errors the same one is always
reported. Clauses of the wrong shape are left out where the query makes sense without them.

- `queryKeys`: the options that all queries share.
- `readQuery`: a query from its options.
- `readJoin`: a join; it needs a matching unless it is a cross join, and an alias if it is more than
  a bare table.
-/

namespace QueryTree

/-- The options that all queries share. -/
def queryKeys : List String :=
  ["table", "alias", "select", "join", "where", "junction", "groupBy", "having", "orderBy",
   "limit", "offset"]

/-- The select items; a clause that is not a list is left out. -/
def readSelect (record : Record) : Reading (List Expr) :=
  match record.get? "select" with
  | some node =>
    match node.json with
    | .arr _ => node.items.mapM (·.item)
    | _ => Reading.leaveOut record.owner "select" "a list" []
  | none => pure []

/-- The joins. -/
def readJoins (record : Record) : Reading (List Join) :=
  match record.get? "join" with
  | some node =>
    match node.json with
    | .arr _ => node.items.mapM (·.join)
    | _ => Reading.invalid (record.path "join") (.expected .joins)
  | none => pure []

/-- The keys to group by: a list or one column. -/
def readGroupBy (record : Record) : Reading (List Expr) :=
  match record.get? "groupBy" with
  | some node =>
    match node.json with
    | .arr _ => node.items.mapM (·.expr)
    | .str column => pure [.text column]
    | _ => Reading.leaveOut record.owner "groupBy" "a list of columns" []
  | none => pure []

/-- The keys to sort by with their directions. -/
def readOrderBy (record : Record) : Reading (List (String × SortOrder)) :=
  match record.json? "orderBy" with
  | some (.obj fields) =>
    fields.mapM fun (column, order) => do
      let field := record.path "orderBy" ++ "." ++ column
      return (column, ← Reading.decoded field (decodeNamed SortOrder order))
  | some _ => Reading.leaveOut record.owner "orderBy" "an object of column: asc|desc" []
  | none => pure []

/-- The junction of sibling conditions. -/
def readJunction (record : Record) : Reading Junction := do
  return (← record.named? Junction "junction").getD default

/-- A query from its options. -/
def readQuery (record : Record) : Reading Query := do
  let table ← record.string "table"
  let select ← readSelect record
  let joins ← readJoins record
  let groupBy ← readGroupBy record
  let orderBy ← readOrderBy record
  let alias? ← record.string? "alias"
  let filter ← record.condition? "where"
  let junction ← readJunction record
  let having ← record.condition? "having"
  let limit ← record.count? "limit"
  let offset ← record.count? "offset"
  let encryption ← record.settings? "encryption"
  return { table, alias?, select, joins, filter, junction, groupBy, having, orderBy, limit, offset,
           encryption }

/-- A column that both sides of a join have. -/
def readSharedColumn : Json → Reading String
  | .str name => do
    checkColumn name "join.using"
    return name
  | _ => Reading.invalid "join.using" (.expected .columnNames)

/-- A column of the outer query and what it is compared with. -/
def readPair (position : String) (field : String × Node) : Reading (String × Expr) := do
  checkColumn field.1 position
  return (field.1, ← field.2.expr)

/-- How the rows of a join are matched. -/
def readMatching (record : Record) : Reading Matching :=
  match record.get? "using" with
  | some node =>
    match node.json with
    | .arr columns => Matching.shared <$> columns.mapM readSharedColumn
    | .obj _ => Matching.pairs <$> node.fields.mapM (readPair "join.using")
    | _ => Reading.leaveOut "join" "using" "a list or an object" .unmatched
  | none => pure .unmatched

/-- Whether a join is matched at all. -/
def Matching.isUnmatched : Matching → Bool
  | .unmatched => true
  | _ => false

/-- A join from the fields of an object. -/
def readJoin (fields : List (String × Node)) : Reading Join := do
  let record ← Record.ofFields "join" (queryKeys ++ ["type", "using"]) fields
  let query ← readQuery record
  let kind := (← record.named? JoinKind "type").getD default
  let matching ← readMatching record
  if matching.isUnmatched && kind != .cross then
    throw (.missing "using" s!"join '{query.table}'")
  if query.isDerived && query.alias?.isNone then
    throw (.missing "alias" s!"derived join '{query.table}'")
  return { kind, matching, query }

end QueryTree

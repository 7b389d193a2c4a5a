import QueryTree.Tree.Reading.Node

/-!
# Reading of statements

- `readSelectStatement`: a query.
- `readWrite`: an insertion or an update.
- `readDelete`: a deletion.
-/

namespace QueryTree

/-- Columns and their values. -/
def readRow (owner : String) (node : Node) : Reading Row :=
  match node.json with
  | .obj _ => node.fields.mapM (readPair owner)
  | _ => Reading.invalid owner (.expected .object)

/-- The rows to write: one, or a list that is not empty. -/
def readRows (node : Node) : Reading (List Row) :=
  match node.json with
  | .arr [] => Reading.invalid "save.data" .emptyList
  | .arr _ => node.items.mapM (readRow "save.data")
  | .obj _ => do return [← readRow "save.data" node]
  | _ => Reading.invalid "save.data" (.expected .objects)

/-- The columns to encrypt with their settings. -/
def readEncrypt (record : Record) : Reading (List (String × Cipher.Settings)) :=
  match record.json? "encrypt" with
  | some (.obj fields) =>
    fields.mapM fun (column, json) => do
      let field := record.path "encrypt" ++ "." ++ column
      return (column, ← Reading.decoded field (Cipher.Settings.decode json))
  | some _ => Reading.invalid (record.path "encrypt") (.expected .object)
  | none => pure []

/-- A query. -/
def readSelectStatement (json : Json) : Reading Query := do
  readQuery (← Record.ofNode "select" (queryKeys ++ ["encryption"]) (Node.ofJson json))

/-- An insertion or an update. -/
def readWrite (json : Json) : Reading Write := do
  let record ← Record.ofNode "save"
    ["table", "alias", "data", "where", "junction", "upsert", "indexes", "encrypt", "encryption"]
    (Node.ofJson json)
  let rows ← readRows (← record.require "data")
  let upsert := (← record.optional "upsert" (readRow "save.upsert")).getD []
  let encrypt ← readEncrypt record
  let table ← record.string "table"
  let alias? ← record.string? "alias"
  let filter ← record.condition? "where"
  let junction ← readJunction record
  let indexes ← record.strings "indexes"
  let encryption ← record.settings? "encryption"
  return { table, alias?, rows, filter, junction, upsert, indexes, encrypt, encryption }

/-- A deletion. -/
def readDelete (json : Json) : Reading Delete := do
  let record ← Record.ofNode "delete" ["table", "alias", "where", "junction", "encryption"]
    (Node.ofJson json)
  let table ← record.string "table"
  let alias? ← record.string? "alias"
  let filter ← record.condition? "where"
  let junction ← readJunction record
  let encryption ← record.settings? "encryption"
  return { table, alias?, filter, junction, encryption }

end QueryTree

import QueryTree.Tree.Reading.Wrapper

/-!
# Nodes

How each kind of JSON value reads as an expression, as a select item, as a condition and as a
join. Nodes are built from the leaves up, so that the readings of a value are made from those of
its parts.

- `Node.scalar`, `Node.arr`, `Node.obj`: the readings of each kind of value.
- `Node.ofJson`: the node of a JSON value.
-/

namespace QueryTree

/-! ## Objects -/

/-- A subquery to test for rows: the options of a query, or an object that refers to one. -/
def readSubquery (node : Node) : Reading Expr :=
  if node.fields.any fun (key, _) => key == "refer" then node.expr
  else .wrapper <$> readWrapper .refer node

/-- The operand of a comparator. -/
def readOperand (comparator : Comparator) (node : Node) : Reading Expr :=
  match comparator with
  | .hasRows | .hasNoRows => readSubquery node
  | _ => node.expr

/-- An entry of a condition: reserved keys first, then comparators, then columns. -/
def readEntry (owner : String) (field : String × Node) : Reading Entry :=
  match Signature.ofKey? field.1 with
  | some signature => readSigned signature field.2
  | none =>
    match ofName? Comparator field.1 with
    | some comparator => .compare comparator <$> readOperand comparator field.2
    | none => do
      checkColumn field.1 owner
      .column field.1 <$> field.2.expr

/-- The wrapper of an object that has one key, which names a wrapper. -/
def readOnlyWrapper? (fields : List (String × Node)) : Option (Reading Wrapper) :=
  match signed? fields with
  | some (.wrapper kind, node) => some (readWrapper kind node)
  | _ => none

/-- An object as an expression: a wrapper, else a condition. -/
def readObject (fields : List (String × Node)) : Reading Expr :=
  match readOnlyWrapper? fields with
  | some wrapper => .wrapper <$> wrapper
  | none => .condition <$> fields.mapM (readEntry "where")

/-- An object as a select item: only wrappers are. -/
def readObjectItem (fields : List (String × Node)) : Reading Expr :=
  match readOnlyWrapper? fields with
  | some wrapper => .wrapper <$> wrapper
  | none => throw (.unknown ((fields.head?.map (·.1)).getD "") "select")

/-! ## Nodes by kind -/

/-- A scalar as an expression. -/
def scalarExpr : Json → Expr
  | .bool b => .bool b
  | .num n => .number n
  | .str s => .text s
  | _ => .null

namespace Node

/-- What is not an object is no condition. -/
def noCondition (owner : String) : Reading Condition :=
  Reading.invalid owner (.expected .condition)

/-- What is not an object is no join. -/
def noJoin : Reading Join :=
  Reading.invalid "join" (.expected .object)

/-- The node of null, a boolean, a number or a string. -/
def scalar (json : Json) : Node where
  json := json
  items := []
  fields := []
  expr := pure (scalarExpr json)
  item := pure (scalarExpr json)
  condition := noCondition
  join := noJoin

/-- The node of an array. -/
def arr (json : List Json) (items : List Node) : Node where
  json := .arr json
  items := items
  fields := []
  expr := .list <$> items.mapM (·.expr)
  item := Reading.invalid "select" .nestedList
  condition := noCondition
  join := noJoin

/-- The node of an object. -/
def obj (json : List (String × Json)) (fields : List (String × Node)) : Node where
  json := .obj json
  items := []
  fields := fields
  expr := readObject fields
  item := readObjectItem fields
  condition := fun owner => fields.mapM (readEntry owner)
  join := readJoin fields

/-- How nodes are built from their parts. -/
def algebra : Json.Algebra Node where
  scalar := scalar
  arr := arr
  obj := obj

/-- The node of a JSON value. -/
def ofJson (json : Json) : Node :=
  json.fold algebra

end Node

end QueryTree

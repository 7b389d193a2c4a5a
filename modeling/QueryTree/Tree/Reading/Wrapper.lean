import QueryTree.Tree.Reading.Query
import QueryTree.Tree.Reading.Steps

/-!
# Reading of wrappers

- `readWrapper`: the wrapper that a key selects, from the options under the key.
- `readCombined`: the entry that a combinator selects.
- `readSigned`: the entry that a reserved key selects.
-/

namespace QueryTree

/-- What a wrapper ends with: a comparison and an alias. -/
def finish (record : Record) (core : Core) : Reading Wrapper := do
  let compare ← record.condition? "compare"
  let alias? ← record.string? "as"
  return ⟨core, compare, alias?⟩

/-- A text. -/
def readString (node : Node) : Reading Wrapper := do
  let record ← Record.ofNode "str" (preparedKeys ++ stringKeys) node
  let prepared ← readPrepared record
  let steps ← readStringSteps record
  return prepared.wrap (.string · · steps)

/-- A number. -/
def readNumber (node : Node) : Reading Wrapper := do
  let record ← Record.ofNode "num" (preparedKeys ++ numberKeys) node
  let steps ← readNumberSteps record
  let prepared ← readPrepared record
  return prepared.wrap (.number · · steps)

/-- A date. -/
def readDate (node : Node) : Reading Wrapper := do
  let record ← Record.ofNode "date" (preparedKeys ++ dateKeys) node
  let prepared ← readPrepared record
  let change ← readDateChange record
  return prepared.wrap (.date · · change)

/-- Texts put together; there has to be one. -/
def readConcat (node : Node) : Reading Wrapper := do
  let record ← Record.ofNode "concat"
    (["value", "pattern", "cast", "encryption", "compare", "as"] ++ stringKeys) node
  let list ← record.require "value"
  let values ← match list.json with
    | .arr (_ :: _) => list.items.mapM (·.expr)
    | _ => Reading.invalid "concat.value" (.expected .nonEmptyList)
  let separator ← record.string? "pattern"
  let cast ← record.named? CastType "cast"
  let encryption ← record.settings? "encryption"
  let steps ← readStringSteps record
  finish record (.concat values separator cast encryption steps)

/-- One of two values. -/
def readChoice (node : Node) : Reading Wrapper := do
  let record ← Record.ofNode "if" ["check", "trueValue", "falseValue", "compare", "as"] node
  let check ← (← record.require "check").condition "if.check"
  let yes ← (← record.requireGiven "trueValue").expr
  let no ← (← record.requireGiven "falseValue").expr
  finish record (.choice check yes no)

/-- A condition and the result if it holds. -/
def readBranch (node : Node) : Reading (Condition × Expr) := do
  let record ← Record.ofNode "case.check" ["when", "then"] node
  let check ← (← record.require "when").condition "case.check.when"
  let result ← (← record.requireGiven "then").expr
  return (check, result)

/-- The result of the first condition that holds; there has to be one. -/
def readCases (node : Node) : Reading Wrapper := do
  let record ← Record.ofNode "case" ["check", "else", "compare", "as"] node
  let list ← record.require "check"
  let branches ← match list.json with
    | .arr (_ :: _) => list.items.mapM readBranch
    | _ => Reading.invalid "case.check" (.expected .branches)
  let otherwise ← match record.given? "else" with
    | some e => some <$> e.expr
    | none => pure none
  finish record (.cases branches otherwise)

/-- The reserved key of an object that has no other key, with what is under it. -/
def signed? : List (String × Node) → Option (Signature × Node)
  | [(key, node)] => (Signature.ofKey? key).map (·, node)
  | _ => none

/-- A field of a JSON object to build. -/
def readField (field : String × Node) : Reading (String × Expr) := do
  return (field.1, ← field.2.expr)

/-- The parts of a JSON value to build. -/
def readJsonBody (node : Node) : Reading JsonBody :=
  match node.json with
  | .obj _ =>
    if (signed? node.fields).isNone then JsonBody.object <$> node.fields.mapM readField
    else JsonBody.single <$> node.expr
  | .arr _ => JsonBody.array <$> node.items.mapM (·.expr)
  | _ => JsonBody.single <$> node.expr

/-- Whether values are collected to one: arrays do so unless told not to. -/
def readAggregate (record : Record) (isArray : Bool) : Bool :=
  match record.json? "aggregate" with
  | some (.bool b) => b
  | _ => isArray

/-- A JSON value, with a query of its own if it names a table. -/
def readJson (isArray : Bool) (node : Node) : Reading Wrapper := do
  let owner := if isArray then "array" else "json"
  let record ← Record.ofNode owner
    (queryKeys.filter (· != "select")
      ++ ["value", "aggregate", "extract", "contains", "compare", "as"]) node
  let source ← match record.get? "table" with
    | some _ => some <$> readQuery record
    | none => pure none
  let body ← readJsonBody (← record.require "value")
  let aggregate := readAggregate record isArray
  let extract ← record.string? "extract"
  let contains := (record.given? "contains").map Node.json
  finish record (.json { isArray, aggregate, extract, contains } body source)

/-- A query used as a value. -/
def readRefer (node : Node) : Reading Wrapper := do
  let record ← Record.ofNode "refer" (queryKeys ++ ["encryption", "as"]) node
  let query ← readQuery record
  let alias? ← record.string? "as"
  return ⟨.refer query, none, alias?⟩

/-- An aggregate. -/
def readAggregateOf (kind : AggregateKind) (node : Node) : Reading Wrapper := do
  let record ← Record.ofNode kind.key
    ["value", "distinct", "ifNull", "cast", "encryption", "compare", "as"] node
  let value ← (← record.require "value").expr
  let distinct ← record.flag "distinct"
  let ifNull ← match record.given? "ifNull" with
    | some e => some <$> e.expr
    | none => pure none
  let cast ← record.named? CastType "cast"
  let encryption ← record.settings? "encryption"
  finish record (.aggregate kind value distinct ifNull cast encryption)

/-- The wrapper of a given kind. -/
def readWrapper (kind : WrapperKind) (node : Node) : Reading Wrapper :=
  match kind with
  | .string => readString node
  | .number => readNumber node
  | .date => readDate node
  | .concat => readConcat node
  | .choice => readChoice node
  | .cases => readCases node
  | .json => readJson false node
  | .array => readJson true node
  | .refer => readRefer node
  | .aggregate kind => readAggregateOf kind node

/-- A list of conditions. -/
def readConditions (owner : String) (node : Node) : Reading (List Condition) :=
  match node.json with
  | .arr _ => node.items.mapM (·.condition owner)
  | _ => Reading.invalid owner (.expected .conditions)

/-- The entry of a combinator. -/
def readCombined (c : Combinator) (node : Node) : Reading Entry :=
  match c with
  | .between => do
    let record ← Record.ofNode "between" ["gt", "lt"] node
    let low ← (← record.require "gt").expr
    let high ← (← record.require "lt").expr
    return .between low high
  | .all => .all <$> readConditions "and" node
  | .any => .any <$> readConditions "or" node

/-- The entry of a reserved key. -/
def readSigned (signature : Signature) (node : Node) : Reading Entry :=
  match signature with
  | .wrapper kind => .wrapper <$> readWrapper kind node
  | .combinator c => readCombined c node

end QueryTree

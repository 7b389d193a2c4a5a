import QueryTree.Text.Letter
import QueryTree.Text.Split
import QueryTree.Tree.Basic

/-!
# Reading of option objects

A query tree is read from JSON from the leaves up: each JSON value becomes a node that knows how
it reads as an expression, as a select item, as a condition and as a join, and the options of an
object are read from the nodes of its fields.

- `Omission`: an optional clause that was left out because of its shape.
- `Reading`: the result of reading, with the omissions so far.
- `Node`: a JSON value and its readings.
- `Record`: an option object whose keys have been checked.
-/

namespace QueryTree

/-- An optional clause that was left out because of its shape. -/
structure Omission where
  owner : String
  key : String
  expected : String
deriving DecidableEq, Repr

/-- Wording of an omission. -/
def Omission.message (omission : Omission) : String :=
  s!"{omission.owner}.{omission.key}: expected {omission.expected}, fragment omitted"

/-- Reading ends at the first error and collects omissions in order. -/
abbrev Reading (α : Type) := StateT (List Omission) (Except CompileError) α

namespace Reading

/-- Leaves a clause out. -/
def leaveOut {α : Type} (owner key expected : String) (instead : α) : Reading α := fun omissions =>
  .ok (instead, omissions ++ [⟨owner, key, expected⟩])

/-- A field whose value is wrong. -/
def invalid {α : Type} (field : String) (fault : Fault) : Reading α :=
  throw (.invalid field fault)

/-- A value that has been decoded by itself. -/
def decoded {α : Type} (field : String) : Except DecodeError α → Reading α
  | .ok a => pure a
  | .error e => invalid field (.decode e)

end Reading

/-- A JSON value and how it reads. -/
structure Node where
  json : Json
  /-- The items of an array. -/
  items : List Node
  /-- The fields of an object. -/
  fields : List (String × Node)
  expr : Reading Expr
  /-- An item of a select list. -/
  item : Reading Expr
  /-- A condition, for the given owner. -/
  condition : String → Reading Condition
  join : Reading Join

/-- Columns are plain names or paths of names. -/
def isColumn (key : String) : Bool :=
  (Text.pathParts key).all Text.isName

/-- Refuses keys that are not columns. -/
def checkColumn (key position : String) : Reading Unit :=
  if isColumn key then pure () else throw (.unknown key position)

/-- An option object whose keys have been checked. -/
structure Record where
  owner : String
  fields : List (String × Node)

namespace Record

/-- The options of an object; the first key that is not among the known ones is refused. -/
def ofFields (owner : String) (known : List String) (fields : List (String × Node)) :
    Reading Record :=
  match fields.find? fun (key, _) => !known.contains key with
  | some (key, _) => throw (.unknown key owner)
  | none => pure ⟨owner, fields⟩

/-- The options of a node, which has to be an object. -/
def ofNode (owner : String) (known : List String) (node : Node) : Reading Record :=
  match node.json with
  | .obj _ => ofFields owner known node.fields
  | _ => Reading.invalid owner (.expected .object)

/-- The path of a field in messages. -/
def path (record : Record) (key : String) : String :=
  record.owner ++ "." ++ key

/-- A field that is given, null included. -/
def given? (record : Record) (key : String) : Option Node :=
  record.fields.lookup key

/-- A field that is given and not null. -/
def get? (record : Record) (key : String) : Option Node :=
  match record.given? key with
  | some node =>
    match node.json with
    | .null => none
    | _ => some node
  | none => none

/-- The JSON value of a field that is given and not null. -/
def json? (record : Record) (key : String) : Option Json :=
  (record.get? key).map Node.json

/-- A field that has to be given and not null. -/
def require (record : Record) (key : String) : Reading Node :=
  match record.get? key with
  | some node => pure node
  | none => throw (.missing key record.owner)

/-- A field that has to be given; null counts. -/
def requireGiven (record : Record) (key : String) : Reading Node :=
  match record.given? key with
  | some node => pure node
  | none => throw (.missing key record.owner)

/-- Reads a field that may be absent. -/
def optional {α : Type} (record : Record) (key : String) (read : Node → Reading α) :
    Reading (Option α) :=
  match record.get? key with
  | some node => some <$> read node
  | none => pure none

/-- A string that may be absent. -/
def string? (record : Record) (key : String) : Reading (Option String) :=
  record.optional key fun node =>
    match node.json with
    | .str s => pure s
    | _ => Reading.invalid (record.path key) (.expected .string)

/-- A string. -/
def string (record : Record) (key : String) : Reading String := do
  match ← record.string? key with
  | some s => return s
  | none => throw (.missing key record.owner)

/-- A list of strings, or one string; absent it is empty. -/
def strings (record : Record) (key : String) : Reading (List String) :=
  match record.json? key with
  | some (.arr items) =>
    items.mapM fun
      | .str s => pure s
      | _ => Reading.invalid (record.path key) (.expected .strings)
  | some (.str s) => pure [s]
  | some _ => Reading.invalid (record.path key) (.expected .stringList)
  | none => pure []

/-- A boolean; absent it is false. -/
def flag (record : Record) (key : String) : Reading Bool :=
  match record.json? key with
  | some (.bool b) => pure b
  | some _ => Reading.invalid (record.path key) (.expected .boolean)
  | none => pure false

/-- A row count that may be absent: a number, or the text of one. -/
def count? (record : Record) (key : String) : Reading (Option Nat) :=
  match record.json? key with
  | some (.num n) =>
    match n.nat? with
    | some count => pure (some count)
    | none => Reading.invalid (record.path key) (.notRowCount n)
  | some (.str s) =>
    match Decimal.parseNat? s.toList with
    | some count =>
      if Decimal.isNat64 count then pure (some count)
      else Reading.invalid (record.path key) (.notRowCountText s)
    | none => Reading.invalid (record.path key) (.notRowCountText s)
  | some _ => Reading.invalid (record.path key) (.expected .rowCount)
  | none => pure none

/-- One of a closed set of names, if it is given. -/
def named? (α : Type) [Named α] (record : Record) (key : String) : Reading (Option α) :=
  record.optional key fun node => Reading.decoded (record.path key) (decodeNamed α node.json)

/-- Encryption settings that may be absent. -/
def settings? (record : Record) (key : String) : Reading (Option Cipher.Settings) :=
  record.optional key fun node =>
    Reading.decoded (record.path key) (Cipher.Settings.decode node.json)

/-- An expression that may be absent. -/
def expr? (record : Record) (key : String) : Reading (Option Expr) :=
  record.optional key (·.expr)

/-- A condition that may be absent. -/
def condition? (record : Record) (key : String) : Reading (Option Condition) :=
  record.optional key (·.condition (record.path key))

end Record

end QueryTree

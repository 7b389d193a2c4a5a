import QueryTree.Json.Basic
import QueryTree.Text.Quoted

/-!
# Decoding of closed sets and records

A JSON value is decoded as one of a closed set of names, or field by field as a record. The cause
of a refusal is kept; its wording is in `DecodeError.message`.

- `Found`: what stood in the place of the expected value.
- `DecodeError`: why a value was refused.
- `Named`, `decodeNamed`: types whose values have names.
- `decodeText`, `decodeFlag`, `decodeNat16`, `decodeOptional`: the fields of records.
-/

namespace QueryTree

/-- What stood in the place of the expected value. -/
inductive Found where
  | null
  | boolean (b : Bool)
  | integer (n : Int)
  | floating (x : Float)
  | text (s : String)
  | sequence
  | map
deriving DecidableEq, Repr

/-- What stands at a JSON value. -/
def Found.ofJson : Json → Found
  | .null => .null
  | .bool b => .boolean b
  | .num (.int n) => .integer n
  | .num (.float x) => .floating x
  | .str s => .text s
  | .arr _ => .sequence
  | .obj _ => .map

/-- Wording of what was found. -/
def Found.message : Found → String
  | .null => "null"
  | .boolean true => "boolean `true`"
  | .boolean false => "boolean `false`"
  | .integer n => s!"integer `{Decimal.intText n}`"
  | .floating x => s!"floating point `{Decimal.floatText x}`"
  | .text s => s!"string {Text.shown s}"
  | .sequence => "sequence"
  | .map => "map"

/-- Why a JSON value was refused. -/
inductive DecodeError where
  | unknownVariant (name : String) (expected : List String)
  | unknownField (name : String) (expected : List String)
  | wrongType (found : Found) (expected : String)
  | wrongInteger (n : Int) (expected : String)
  | notSingleKey
  | tooShort (length : Nat) (expected : String)
  | tooLong (length : Nat)
deriving DecidableEq, Repr

/-- The names that would have been accepted. -/
def expectedNames : List String → String
  | [a] => s!"`{a}`"
  | [a, b] => s!"`{a}` or `{b}`"
  | names => "one of " ++ String.intercalate ", " (names.map fun name => s!"`{name}`")

/-- Wording of a refusal. -/
def DecodeError.message : DecodeError → String
  | .unknownVariant name expected =>
    s!"unknown variant `{name}`, expected {expectedNames expected}"
  | .unknownField name expected => s!"unknown field `{name}`, expected {expectedNames expected}"
  | .wrongType found expected => s!"invalid type: {found.message}, expected {expected}"
  | .wrongInteger n expected =>
    s!"invalid value: {(Found.integer n).message}, expected {expected}"
  | .notSingleKey => "invalid value: map, expected map with a single key"
  | .tooShort length expected => s!"invalid length {length}, expected {expected}"
  | .tooLong length => s!"invalid length {length}, expected fewer elements in array"

/-- Types whose values have names, listed in the order in which a refusal lists them. A value may
have several names. -/
class Named (α : Type) where
  names : List (String × α)

/-- The value with a given name. -/
def ofName? (α : Type) [Named α] (name : String) : Option α :=
  (Named.names (α := α)).lookup name

/-- The value with a given name, or the names that there are. -/
def decodeName (α : Type) [Named α] (name : String) : Except DecodeError α :=
  match ofName? α name with
  | some a => .ok a
  | none => .error (.unknownVariant name ((Named.names (α := α)).map (·.1)))

/-- A name, or an object with that name as its only key and nothing in it. -/
def decodeNamed (α : Type) [Named α] : Json → Except DecodeError α
  | .str name => decodeName α name
  | .obj [(name, content)] => do
    let a ← decodeName α name
    match content with
    | .null => return a
    | other => throw (.wrongType (.ofJson other) "unit")
  | .obj _ => .error .notSingleKey
  | other => .error (.wrongType (.ofJson other) "string or map")

/-- A string. -/
def decodeText : Json → Except DecodeError String
  | .str s => .ok s
  | other => .error (.wrongType (.ofJson other) "a string")

/-- A boolean. -/
def decodeFlag : Json → Except DecodeError Bool
  | .bool b => .ok b
  | other => .error (.wrongType (.ofJson other) "a boolean")

/-- A natural number of 16 bits. -/
def decodeNat16 : Json → Except DecodeError Nat
  | .num (.int n) => if 0 ≤ n && n < 65536 then .ok n.toNat else .error (.wrongInteger n "u16")
  | other => .error (.wrongType (.ofJson other) "u16")

/-- A value that may be null. -/
def decodeOptional {α : Type} (decode : Json → Except DecodeError α) :
    Json → Except DecodeError (Option α)
  | .null => .ok none
  | other => (decode other).map some

end QueryTree

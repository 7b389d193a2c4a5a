import QueryTree.Json.Printer

/-!
# Bound values

The values that are handed over beside the text of a statement, one for each placeholder.

- `Value`: the kinds of value; an identifier is bound like a value in dialects that quote it
  themselves.
- `Value.ofNumber`, `Value.ofJson`, `Value.ofNat`: values from JSON and from counts.
-/

namespace QueryTree

/-- A value bound to a placeholder. -/
inductive Value where
  | null
  | bool (b : Bool)
  | int (n : Int)
  | float (x : Float)
  | text (s : String)
  | identifier (path : String)
deriving DecidableEq, Repr

namespace Value

/-- An integer of 64 bits with a sign; beyond that range the nearest floating-point number. -/
def ofInt (n : Int) : Value :=
  if Decimal.isInt64 n then .int n else .float (Decimal.floatOfInt n)

/-- The value of a number. -/
def ofNumber : Number → Value
  | .int n => ofInt n
  | .float x => .float x

/-- The value of a count. -/
def ofNat (n : Nat) : Value :=
  ofInt n

/-- The value of a JSON scalar; arrays and objects are bound as their compact text. -/
def ofJson : Json → Value
  | .null => .null
  | .bool b => .bool b
  | .num n => ofNumber n
  | .str s => .text s
  | .arr items => .text (Json.compact (.arr items))
  | .obj fields => .text (Json.compact (.obj fields))

/-- Whether the value names something in the database. -/
def isIdentifier : Value → Bool
  | .identifier _ => true
  | _ => false

/-- The value as JSON; an identifier is a string. -/
def toJson : Value → Json
  | .null => .null
  | .bool b => .bool b
  | .int n => .num (.int n)
  | .float x => .num (.float x)
  | .text s => .str s
  | .identifier path => .str path

/-- One letter for the kind of a value. -/
def kindLetter : Value → Char
  | .null => 'n'
  | .bool _ => 'b'
  | .int _ => 'i'
  | .float _ => 'f'
  | .text _ => 's'
  | .identifier _ => 'I'

end Value

end QueryTree

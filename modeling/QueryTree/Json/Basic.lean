import QueryTree.Decimal.Format

/-!
# JSON values

Objects keep their fields in the order in which they were written: that order is the order of
emission everywhere in the library.

- `Number`: integers and floating-point numbers are told apart by their spelling.
- `Json`: values.
- `Json.get?`: a field of an object.
- `Json.Algebra`, `Json.fold`: what to make of each kind of value, applied from the leaves up.
-/

namespace QueryTree

/-- A number as written: an integer of 64 bits, with or without a sign, or a floating-point
number. -/
inductive Number where
  | int (n : Int)
  | float (x : Float)
deriving DecidableEq, Repr

namespace Number

/-- The integer, if there is one and it fits 64 bits with a sign. -/
def int64? : Number → Option Int
  | .int n => if Decimal.isInt64 n then some n else none
  | .float _ => none

/-- The integer, if there is one and it is not negative. -/
def nat? : Number → Option Nat
  | .int (.ofNat n) => some n
  | _ => none

/-- The nearest floating-point number. -/
def toFloat : Number → Float
  | .int n => Decimal.floatOfInt n
  | .float x => x

/-- The number as JSON text. -/
def text : Number → String
  | .int n => Decimal.intText n
  | .float x => Decimal.floatText x

end Number

/-- JSON values with ordered object fields. -/
inductive Json where
  | null
  | bool (b : Bool)
  | num (n : Number)
  | str (s : String)
  | arr (items : List Json)
  | obj (fields : List (String × Json))
deriving Repr, Inhabited

namespace Json

/-- The value of the first field with the given key; `none` for anything but an object. -/
def get? (key : String) : Json → Option Json
  | .obj fields => fields.lookup key
  | _ => none

/-- What to make of each kind of value, given what was made of its parts. A part is kept beside
what was made of it. -/
structure Algebra (α : Type) where
  scalar : Json → α
  arr : List Json → List α → α
  obj : List (String × Json) → List (String × α) → α

mutual

/-- Applies an algebra from the leaves up. -/
def fold {α : Type} (alg : Algebra α) : Json → α
  | .arr items => alg.arr items (foldItems alg items)
  | .obj fields => alg.obj fields (foldFields alg fields)
  | .null => alg.scalar .null
  | .bool b => alg.scalar (.bool b)
  | .num n => alg.scalar (.num n)
  | .str s => alg.scalar (.str s)

/-- Applies an algebra to each item of an array. -/
def foldItems {α : Type} (alg : Algebra α) : List Json → List α
  | [] => []
  | item :: rest => fold alg item :: foldItems alg rest

/-- Applies an algebra to each field of an object. -/
def foldFields {α : Type} (alg : Algebra α) : List (String × Json) → List (String × α)
  | [] => []
  | (key, value) :: rest => (key, fold alg value) :: foldFields alg rest

end

end Json

end QueryTree

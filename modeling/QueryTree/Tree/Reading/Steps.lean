import QueryTree.Tree.Record

/-!
# Reading of operands and steps

- `Prepared`, `readPrepared`: the value of a wrapper and what is done to it first and last.
- `readStringSteps`: the steps that change a text.
- `readNumberSteps`: the steps that change a number.
- `readDateChange`: how a date is read, shifted and written.

Options are read in a fixed order, which need not be the order in which the steps are applied.
-/

namespace QueryTree

/-! ## Operands -/

/-- The value of a wrapper, its preparation and its finishing steps. -/
structure Prepared where
  value : Expr
  prepare : Preparation
  compare : Option Condition
  alias? : Option String

/-- The wrapper with a given core. -/
def Prepared.wrap (prepared : Prepared) (core : Expr → Preparation → Core) : Wrapper :=
  ⟨core prepared.value prepared.prepare, prepared.compare, prepared.alias?⟩

/-- The options of a wrapper on one value. -/
def preparedKeys : List String :=
  ["value", "decrypt", "encryption", "cast", "compare", "as"]

/-- Whether a column is decrypted: a boolean, or settings of its own. -/
def readDecrypt (record : Record) : Reading (Option Cipher.Settings) :=
  match record.json? "decrypt" with
  | some (.bool true) => pure (some .unset)
  | some (.bool false) | none => pure none
  | some other =>
    some <$> Reading.decoded (record.path "decrypt") (Cipher.Settings.decode other)

/-- The value of a wrapper, its preparation and its finishing steps. -/
def readPrepared (record : Record) : Reading Prepared := do
  let decrypt ← readDecrypt record
  let value ← (← record.requireGiven "value").expr
  let encryption ← record.settings? "encryption"
  let cast ← record.named? CastType "cast"
  let compare ← record.condition? "compare"
  let alias? ← record.string? "as"
  return { value, prepare := { decrypt, encryption, cast }, compare, alias? }

/-! ## Texts -/

/-- The options of texts. -/
def stringKeys : List String :=
  ["trim", "substr", "padding", "textCase", "reverse", "replace", "encoding"]

/-- Which side blanks are taken from, if any. -/
def readTrim (record : Record) : Reading (List StringStep) :=
  match record.json? "trim" with
  | some (.bool true) => pure [.trim .both]
  | some (.str name) =>
    match Side.ofName? name with
    | some side => pure [.trim side]
    | none => Reading.invalid (record.path "trim") (.notSide name)
  | some (.bool false) | none => pure []
  | some _ => Reading.invalid (record.path "trim") (.expected .side)

/-- A part of a text. -/
def readSubstr (record : Record) : Reading (List StringStep) :=
  match record.get? "substr" with
  | some node => do
    let options ← Record.ofNode (record.path "substr") ["start", "length"] node
    let start ← (← options.require "start").expr
    let length ← options.expr? "length"
    return [.substr start length]
  | none => pure []

/-- Padding on one side. -/
def readPad (padding : Record) (side : String) : Reading (Option Pad) :=
  match padding.get? side with
  | some node => do
    let options ← Record.ofNode (padding.path side) ["length", "pattern"] node
    let length ← (← options.require "length").expr
    let pattern ← options.expr? "pattern"
    return some ⟨length, pattern⟩
  | none => pure none

/-- Padding on both sides, the left one first. -/
def readPadding (record : Record) : Reading (List StringStep) :=
  match record.get? "padding" with
  | some node => do
    let padding ← Record.ofNode (record.path "padding") ["left", "right"] node
    let left ← readPad padding "left"
    let right ← readPad padding "right"
    return [.padding left right]
  | none => pure []

/-- A replacement. -/
def readReplace (record : Record) : Reading (List StringStep) :=
  match record.get? "replace" with
  | some node => do
    let options ← Record.ofNode (record.path "replace") ["target", "replaceWith"] node
    let target ← (← options.require "target").expr
    let replacement ← (← options.requireGiven "replaceWith").expr
    return [.replace target replacement]
  | none => pure []

/-- The steps that change a text, in the order in which they are applied. -/
def readStringSteps (record : Record) : Reading (List StringStep) := do
  let trim ← readTrim record
  let substr ← readSubstr record
  let padding ← readPadding record
  let replace ← readReplace record
  let textCase ← record.named? TextCase "textCase"
  let reverse ← record.flag "reverse"
  let encoding ← record.named? Charset "encoding"
  return trim ++ substr ++ padding ++ textCase.toList.map .textCase
    ++ (if reverse then [.reverse] else []) ++ replace ++ encoding.toList.map .encoding

/-! ## Numbers -/

/-- The options of numbers. -/
def numberKeys : List String :=
  ["power", "divideBy", "mod", "multiplyBy", "add", "sub", "decimal"]

/-- Digit counts have 32 bits. -/
def digitCount? (n : Nat) : Option Rounding :=
  if n < 4294967296 then some (.digits n) else none

/-- A mode of rounding or the text of a digit count. -/
def roundingOfText? (text : String) : Option Rounding :=
  match text with
  | "ceil" => some .ceil
  | "floor" => some .floor
  | "round" => some .round
  | text => (Decimal.parseNat? text.toList).bind digitCount?

/-- How a number is rounded. -/
def readRounding (record : Record) : Reading (Option Rounding) :=
  match record.json? "decimal" with
  | some (.str text) =>
    match roundingOfText? text with
    | some rounding => pure (some rounding)
    | none => Reading.invalid "num.decimal" (.notRounding text)
  | some (.num n) =>
    match n.nat?.bind digitCount? with
    | some rounding => pure (some rounding)
    | none => Reading.invalid "num.decimal" (.notDigitCount n)
  | some _ => Reading.invalid "num.decimal" (.expected .rounding)
  | none => pure none

/-- The steps that change a number, in the order in which they are applied. -/
def readNumberSteps (record : Record) : Reading (List NumberStep) := do
  let power ← record.expr? "power"
  let divide ← record.expr? "divideBy"
  let modulo ← record.expr? "mod"
  let multiply ← record.expr? "multiplyBy"
  let add ← record.expr? "add"
  let subtract ← record.expr? "sub"
  let rounding ← readRounding record
  let step (operation : Arithmetic) (operand : Option Expr) : List NumberStep :=
    operand.toList.map (.arithmetic operation)
  return power.toList.map .power ++ step .divide divide ++ step .modulo modulo
    ++ step .multiply multiply ++ step .add add ++ step .subtract subtract
    ++ rounding.toList.map .rounding

/-! ## Dates -/

/-- The options of dates. -/
def dateKeys : List String :=
  ["fromPattern", "add", "sub", "format"]

/-- An interval; absent it is empty. -/
def readInterval (record : Record) (key : String) : Reading (List Interval.Step) :=
  match record.json? key with
  | some json =>
    match Interval.ofJson (record.path key) json with
    | .ok steps => pure steps
    | .error e => throw e
  | none => pure []

/-- How a date is read, shifted and written. -/
def readDateChange (record : Record) : Reading DateChange := do
  let fromPattern ← record.string? "fromPattern"
  let add ← readInterval record "add"
  let sub ← readInterval record "sub"
  let format ← record.string? "format"
  return { fromPattern, add, sub, format }

end QueryTree

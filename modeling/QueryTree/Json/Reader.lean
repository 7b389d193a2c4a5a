import QueryTree.Json.Basic
import QueryTree.Text.Blank

/-!
# Reading JSON text

The text is cut into marks by a scanner that looks at one character at a time, and the marks are
put together with the open arrays and objects held on a stack. Both passes go through their input
once.

- `Mark`: punctuation and scalar values.
- `Scan`, `Scan.step?`: where the scanner stands, and what a character does to it.
- `Frame`, `build?`: arrays and objects that have been opened and not closed.
- `read?`: the value of a whole text, `none` if it is not JSON.
-/

namespace QueryTree.Json

open Text Decimal

/-- A piece of JSON text. -/
inductive Mark where
  | open (object : Bool)
  | close (object : Bool)
  | comma
  | colon
  | value (v : Json)
deriving Repr

/-! ## Numbers -/

/-- Digits at the front, and the rest. -/
def spanDigits (cs : List Char) : List Char × List Char :=
  cs.span isDigit

/-- The digits after a point, if there is one, and the rest. -/
def fraction? : List Char → Option (List Char × List Char)
  | '.' :: cs =>
    let (digits, rest) := spanDigits cs
    if digits.isEmpty then none else some (digits, rest)
  | cs => some ([], cs)

/-- The exponent part of a number, zero if there is none. -/
def exponent? : List Char → Option Int
  | [] => some 0
  | c :: cs => if c == 'e' || c == 'E' then parseInt? cs else none

/-- Reads digits, an optional fraction and an optional exponent. Digits without either are an
integer if it fits 64 bits; `-0` and all others are floating-point numbers. -/
def unsigned? (negative : Bool) (cs : List Char) : Option Number := do
  let (whole, rest) := spanDigits cs
  if whole.isEmpty || (whole.head? == some '0' && 1 < whole.length) then failure
  if rest.isEmpty then
    let n := natOfDigits whole
    let signed : Int := if negative then -(n : Int) else n
    if (isInt64 signed || isNat64 signed) && !(negative && n == 0) then return .int signed
    return .float (floatOfDecimal negative n 0)
  let (fraction, rest) ← fraction? rest
  let e ← exponent? rest
  return .float (floatOfDecimal negative (natOfDigits (whole ++ fraction)) (e - fraction.length))

/-- Reads a number. -/
def number? : List Char → Option Number
  | '-' :: cs => unsigned? true cs
  | cs => unsigned? false cs

/-- Reads a number or one of the three words. -/
def word? (cs : List Char) : Option Json :=
  match String.ofList cs with
  | "null" => some .null
  | "true" => some (.bool true)
  | "false" => some (.bool false)
  | _ => (number? cs).map .num

/-! ## The scanner -/

/-- Where the scanner stands. Characters of a string or word are kept in reverse. -/
inductive Scan where
  | between
  | word (done : List Char)
  | text (done : List Char)
  | escape (done : List Char)
  | code (done : List Char) (high : Option Nat) (digits : List Nat)
  | half (done : List Char) (high : Nat)
  | halfEscape (done : List Char) (high : Nat)

/-- The value of a hexadecimal digit. -/
def hexValue? (c : Char) : Option Nat :=
  if isDigit c then some (digitValue c)
  else if 'a' ≤ c && c ≤ 'f' then some (c.toNat - 'a'.toNat + 10)
  else if 'A' ≤ c && c ≤ 'F' then some (c.toNat - 'A'.toNat + 10)
  else none

/-- The character of a one-letter escape. -/
def simpleEscape? : Char → Option Char
  | '"' => some '"'
  | '\\' => some '\\'
  | '/' => some '/'
  | 'b' => some '\x08'
  | 'f' => some '\x0c'
  | 'n' => some '\n'
  | 'r' => some '\r'
  | 't' => some '\t'
  | _ => none

/-- The character with a given code, if there is one. -/
def charOfCode? (code : Nat) : Option Char :=
  if code < 0xD800 || (0xE000 ≤ code && code < 0x110000) then some (Char.ofNat code) else none

/-- What a complete four-digit code does: a character is added, the first half of a pair is kept
for the second, and a half alone is refused. -/
def endCode? (done : List Char) (high : Option Nat) (code : Nat) : Option Scan :=
  match high with
  | none =>
    if 0xD800 ≤ code && code < 0xDC00 then some (.half done code)
    else (charOfCode? code).map fun c => .text (c :: done)
  | some high =>
    if 0xDC00 ≤ code && code < 0xE000 then
      some (.text (Char.ofNat (0x10000 + (high - 0xD800) * 1024 + (code - 0xDC00)) :: done))
    else none

/-- A character between two marks. -/
def Scan.start? (c : Char) : Option (Scan × List Mark) :=
  match c with
  | '[' => some (.between, [.open false])
  | ']' => some (.between, [.close false])
  | '\x7b' => some (.between, [.open true])
  | '\x7d' => some (.between, [.close true])
  | ',' => some (.between, [.comma])
  | ':' => some (.between, [.colon])
  | '"' => some (.text [], [])
  | c => if isLayout c then some (.between, []) else some (.word [c], [])

/-- Whether a character ends a word. -/
def isDelimiter (c : Char) : Bool :=
  isLayout c || c == ',' || c == ':' || c == ']' || c == '\x7d' || c == '[' || c == '\x7b'
    || c == '"'

/-- What a character does to the scanner: where it stands next, and the marks that are complete. -/
def Scan.step? (c : Char) : Scan → Option (Scan × List Mark)
  | .between => Scan.start? c
  | .word done =>
    if isDelimiter c then do
      let v ← word? done.reverse
      let (next, marks) ← Scan.start? c
      return (next, .value v :: marks)
    else some (.word (c :: done), [])
  | .text done =>
    if c == '"' then some (.between, [.value (.str (String.ofList done.reverse))])
    else if c == '\\' then some (.escape done, [])
    else if c.toNat < 32 then none
    else some (.text (c :: done), [])
  | .escape done =>
    if c == 'u' then some (.code done none [], [])
    else (simpleEscape? c).map fun ch => (.text (ch :: done), [])
  | .code done high digits => do
    let d ← hexValue? c
    match digits with
    | [x, y, z] =>
      let next ← endCode? done high (4096 * x + 256 * y + 16 * z + d)
      return (next, [])
    | _ => return (.code done high (digits ++ [d]), [])
  | .half done high => if c == '\\' then some (.halfEscape done high, []) else none
  | .halfEscape done high => if c == 'u' then some (.code done (some high) [], []) else none

/-- The marks of a text, from where the scanner stands; a line feed is taken to follow it. -/
def Scan.marks? : Scan → List Char → Option (List Mark)
  | scan, [] => do
    match ← scan.step? '\n' with
    | (.between, marks) => return marks
    | _ => failure
  | scan, c :: cs => do
    let (next, marks) ← scan.step? c
    return marks ++ (← next.marks? cs)

/-! ## Arrays and objects -/

/-- An array or object that has been opened, with its parts so far in reverse. In an object the
key of the next field may have been read. -/
inductive Frame where
  | arr (items : List Json)
  | obj (fields : List (String × Json)) (key : Option String)

/-- What the next mark may be. -/
inductive Expect where
  | valueOrClose
  | value
  | key
  | keyOrClose
  | colon
  | commaOrClose
  | done (v : Json)

/-- Puts a complete value where it belongs. -/
def place (v : Json) : List Frame → List Frame × Expect
  | [] => ([], .done v)
  | .arr items :: outer => (.arr (v :: items) :: outer, .commaOrClose)
  | .obj fields (some key) :: outer => (.obj ((key, v) :: fields) none :: outer, .commaOrClose)
  | .obj fields none :: outer => (.obj fields none :: outer, .commaOrClose)

/-- Closes the innermost array or object. -/
def close? (object : Bool) : List Frame → Option (List Frame × Expect)
  | .arr items :: outer => if object then none else some (place (.arr items.reverse) outer)
  | .obj fields _ :: outer => if object then some (place (.obj fields.reverse) outer) else none
  | [] => none

/-- Whether a value may come next. -/
def Expect.takesValue : Expect → Bool
  | .valueOrClose | .value => true
  | _ => false

/-- What a mark does to the open arrays and objects. -/
def advance? (stack : List Frame) (expect : Expect) : Mark → Option (List Frame × Expect)
  | .open object =>
    if expect.takesValue then
      some (if object then (.obj [] none :: stack, .keyOrClose)
        else (.arr [] :: stack, .valueOrClose))
    else none
  | .close object =>
    match expect with
    | .valueOrClose | .keyOrClose | .commaOrClose => close? object stack
    | _ => none
  | .comma =>
    match expect, stack with
    | .commaOrClose, .arr _ :: _ => some (stack, .value)
    | .commaOrClose, .obj _ _ :: _ => some (stack, .key)
    | _, _ => none
  | .colon =>
    match expect with
    | .colon => some (stack, .value)
    | _ => none
  | .value v =>
    match expect, v, stack with
    | .key, .str s, .obj fields _ :: outer => some (.obj fields (some s) :: outer, .colon)
    | .keyOrClose, .str s, .obj fields _ :: outer => some (.obj fields (some s) :: outer, .colon)
    | expect, v, stack => if expect.takesValue then some (place v stack) else none

/-- Puts marks together to one value. -/
def build? (stack : List Frame) (expect : Expect) : List Mark → Option Json
  | [] =>
    match expect with
    | .done v => some v
    | _ => none
  | mark :: rest => do
    let (stack, expect) ← advance? stack expect mark
    build? stack expect rest

/-- Reads a whole text. -/
def read? (s : String) : Option Json := do
  build? [] .value (← Scan.between.marks? s.toList)

end QueryTree.Json

import QueryTree.Text.Split
import QueryTree.Toml.Token

/-!
# TOML documents

A document is read to the JSON object that it stands for. Floating-point numbers and dates are
refused, since no setting takes them.

- `integer?`: integers with underscores and bases.
- `value?`: scalars, arrays and inline tables.
- `Table`: tables with where they come from, so that none is defined twice.
- `document?`: the object of a whole text.
-/

namespace QueryTree.Toml

open Decimal
open Text (isDigit)

/-! ## Numbers -/

/-- Removes underscores, each of which has to stand between two digits. -/
def dropUnderscores? (cs : List Char) : Option (List Char) :=
  let parts := Text.splitOn '_' cs
  if parts.any List.isEmpty then none else some parts.flatten

/-- The number of digits in a base. -/
def inBase? (base : Nat) (cs : List Char) : Option Nat := do
  let digits ← dropUnderscores? cs
  digits.foldlM (fun n c => do
    let d ← Json.hexValue? c
    if d < base then some (base * n + d) else none) 0

/-- A decimal number without a sign and without leading zeros. -/
def decimal? (cs : List Char) : Option Nat := do
  let digits ← dropUnderscores? cs
  if digits.head? == some '0' && 1 < digits.length then none else digitsNat? digits

/-- An integer of 64 bits. -/
def integer? (s : String) : Option Int := do
  let n ← match s.toList with
    | '0' :: 'x' :: cs => (inBase? 16 cs).map Int.ofNat
    | '0' :: 'o' :: cs => (inBase? 8 cs).map Int.ofNat
    | '0' :: 'b' :: cs => (inBase? 2 cs).map Int.ofNat
    | '-' :: cs => (decimal? cs).map fun n => -(n : Int)
    | '+' :: cs => (decimal? cs).map Int.ofNat
    | cs => (decimal? cs).map Int.ofNat
  if isInt64 n then some n else none

/-- A boolean or an integer. -/
def word? (s : String) : Option Json :=
  match s with
  | "true" => some (.bool true)
  | "false" => some (.bool false)
  | s => (integer? s).map fun n => .num (.int n)

/-! ## Keys -/

/-- Characters of bare keys. -/
def isKeyChar (c : Char) : Bool :=
  c.isAlphanum || c == '_' || c == '-'

/-- One part of a key. -/
def keyPart? : Token → Option String
  | .bare s => if s.toList.all isKeyChar then some s else none
  | .text s => some s
  | _ => none

/-- A dotted key, and what follows it. -/
def key? : List Token → Option (List String × List Token)
  | token :: .dot :: rest => do
    let part ← keyPart? token
    let (parts, rest) ← key? rest
    return (part :: parts, rest)
  | token :: rest => do return ([← keyPart? token], rest)
  | [] => none

/-! ## Tables -/

/-- Where a table comes from: a header, dotted keys, or a header of a table inside it. -/
inductive Origin where
  | header
  | dotted
  | implied
deriving DecidableEq, Repr

/-- A value, or a table that can still grow. -/
inductive Table where
  | value (json : Json)
  | fields (origin : Origin) (fields : List (String × Table))

/-- Replaces the value of a key, or adds the key at the end. -/
def put {α : Type} (key : String) (a : α) : List (String × α) → List (String × α)
  | [] => [(key, a)]
  | (other, b) :: rest => if other = key then (key, a) :: rest else (other, b) :: put key a rest

/-- Sets a dotted key; each part but the last names a table made by dotted keys. -/
def assign? : List String → Json → List (String × Table) → Option (List (String × Table))
  | [], _, _ => none
  | [key], json, fields =>
    match fields.lookup key with
    | some _ => none
    | none => some (put key (.value json) fields)
  | key :: path, json, fields =>
    match fields.lookup key with
    | none => (assign? path json []).map fun inner => put key (.fields .dotted inner) fields
    | some (.fields .dotted inner) =>
      (assign? path json inner).map fun inner => put key (.fields .dotted inner) fields
    | some _ => none

/-- Defines the table of a header, or works on one that is defined. -/
def underHeader? (update : List (String × Table) → Option (List (String × Table)))
    (define : Bool) : List String → List (String × Table) → Option (List (String × Table))
  | [], fields => update fields
  | [key], fields =>
    match fields.lookup key with
    | none => if define then some (put key (.fields .header []) fields) else none
    | some (.fields .implied inner) =>
      if define then some (put key (.fields .header inner) fields)
      else (update inner).map fun inner => put key (.fields .implied inner) fields
    | some (.fields origin inner) =>
      if define then none else (update inner).map fun inner => put key (.fields origin inner) fields
    | some (.value _) => none
  | key :: path, fields =>
    match fields.lookup key with
    | none =>
      (underHeader? update define path []).map fun inner => put key (.fields .implied inner) fields
    | some (.fields origin inner) =>
      (underHeader? update define path inner).map fun inner => put key (.fields origin inner) fields
    | some (.value _) => none

mutual

/-- The JSON value of a table. -/
def Table.toJson : Table → Json
  | .value json => json
  | .fields _ fields => .obj (toJsonFields fields)

/-- The JSON values of fields. -/
def toJsonFields : List (String × Table) → List (String × Json)
  | [] => []
  | (key, table) :: rest => (key, table.toJson) :: toJsonFields rest

end

/-! ## Values -/

/-- Drops ends of lines, which may stand between the items of an array. -/
def dropNewlines (tokens : List Token) : List Token :=
  tokens.dropWhile (· == .newline)

mutual

/-- A value and what follows it. The fuel bounds the depth and the number of parts. -/
def value? : Nat → List Token → Option (Json × List Token)
  | 0, _ => none
  | fuel + 1, tokens =>
    match tokens with
    | .text s :: rest => some (.str s, rest)
    | .bare s :: rest => (word? s).map (·, rest)
    | .openBracket :: rest => do
      let (items, rest) ← items? fuel (dropNewlines rest)
      return (.arr items, rest)
    | .openBrace :: .closeBrace :: rest => some (.obj [], rest)
    | .openBrace :: rest => do
      let (fields, rest) ← entries? fuel [] rest
      return (.obj (toJsonFields fields), rest)
    | _ => none

/-- The items of an array up to its closing bracket; a comma may follow the last. -/
def items? : Nat → List Token → Option (List Json × List Token)
  | 0, _ => none
  | _ + 1, .closeBracket :: rest => some ([], rest)
  | fuel + 1, tokens => do
    let (item, rest) ← value? fuel tokens
    match dropNewlines rest with
    | .closeBracket :: rest => return ([item], rest)
    | .comma :: rest =>
      let (items, rest) ← items? fuel (dropNewlines rest)
      return (item :: items, rest)
    | _ => failure

/-- The entries of an inline table up to its closing brace. -/
def entries? : Nat → List (String × Table) → List Token →
    Option (List (String × Table) × List Token)
  | 0, _, _ => none
  | fuel + 1, fields, tokens => do
    let (key, rest) ← key? tokens
    let .equals :: rest := rest | failure
    let (json, rest) ← value? fuel rest
    let fields ← assign? key json fields
    match rest with
    | .closeBrace :: rest => return (fields, rest)
    | .comma :: rest => entries? fuel fields rest
    | _ => failure

end

/-! ## Documents -/

/-- Reads line after line; keys belong to the last header. -/
def lines? : Nat → List String → List (String × Table) → List Token →
    Option (List (String × Table))
  | 0, _, _, _ => none
  | _ + 1, _, fields, [] => some fields
  | fuel + 1, header, fields, .newline :: rest => lines? fuel header fields rest
  | fuel + 1, _, fields, .openBracket :: rest => do
    let (key, rest) ← key? rest
    let .closeBracket :: .newline :: rest := rest | failure
    let fields ← underHeader? some true key fields
    lines? fuel key fields rest
  | fuel + 1, header, fields, tokens => do
    let (key, rest) ← key? tokens
    let .equals :: rest := rest | failure
    let (json, rest) ← value? fuel rest
    let .newline :: rest := rest | failure
    let fields ← underHeader? (assign? key json) false header fields
    lines? fuel header fields rest

/-- The object of a whole text. -/
def document? (s : String) : Option Json := do
  let tokens ← tokens? s
  let fields ← lines? (tokens.length + 1) [] [] tokens
  return .obj (toJsonFields fields)

end QueryTree.Toml

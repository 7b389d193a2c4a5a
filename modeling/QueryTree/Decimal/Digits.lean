import QueryTree.Text.Class

/-!
# Decimal digits

- `digitValue`, `natOfDigits`: the number that a run of digits denotes.
- `digitCount`: how many digits a number has, none for zero.
- `pow2`, `pow10`: powers of the two bases.
- `natText`, `intText`, `signedText`: decimal text, without and with an explicit sign.
- `parseNat?`, `parseInt?`: whole texts; a leading `+` is accepted, a leading `-` only for
  integers, and nothing else may stand beside the digits.
-/

namespace QueryTree.Decimal

open Text

/-- A power of two. -/
def pow2 (n : Nat) : Nat :=
  Nat.pow 2 n

/-- A power of ten. -/
def pow10 (n : Nat) : Nat :=
  Nat.pow 10 n

/-- The value of an ASCII digit. -/
def digitValue (c : Char) : Nat :=
  c.toNat - '0'.toNat

/-- The number written by a run of digits, read from the left. -/
def natOfDigits (cs : List Char) : Nat :=
  cs.foldl (fun n c => 10 * n + digitValue c) 0

/-- The decimal digits of a number; zero has one. -/
def natDigits (n : Nat) : List Char :=
  Nat.toDigits 10 n

theorem isDigit_of_mem_natDigits {n : Nat} {c : Char} (h : c ∈ natDigits n) :
    isDigit c = true := by
  have hd := Nat.isDigit_of_mem_toDigits (by decide) (by decide) h
  simpa [Char.isDigit, isDigit, Char.le_def] using hd

theorem natOfDigits_natDigits (n : Nat) : natOfDigits (natDigits n) = n := by
  have h := Nat.ofDigitChars_ten_toDigits (n := n)
  rwa [Nat.ofDigitChars_eq_foldl] at h

/-- Number of digits in front of the point; zero has none. -/
def digitCount (n : Nat) : Nat :=
  if n = 0 then 0 else (natDigits n).length

/-- Decimal text of a natural number. -/
def natText (n : Nat) : String :=
  String.ofList (natDigits n)

/-- Decimal text of an integer, with a sign only if it is negative. -/
def intText : Int → String
  | .ofNat n => natText n
  | .negSucc n => "-" ++ natText (n + 1)

/-- Decimal text of an integer with its sign always written. -/
def signedText : Int → String
  | .ofNat n => "+" ++ natText n
  | .negSucc n => "-" ++ natText (n + 1)

/-- Reads a non-empty run of digits that is the whole text. -/
def digitsNat? (cs : List Char) : Option Nat :=
  if !cs.isEmpty && cs.all isDigit then some (natOfDigits cs) else none

/-- Reads an unsigned number, with or without a leading `+`. -/
def parseNat? : List Char → Option Nat
  | '+' :: cs => digitsNat? cs
  | cs => digitsNat? cs

/-- Reads an integer, with or without a sign. -/
def parseInt? : List Char → Option Int
  | '-' :: cs => (digitsNat? cs).map fun n => -(n : Int)
  | '+' :: cs => (digitsNat? cs).map fun n => (n : Int)
  | cs => (digitsNat? cs).map fun n => (n : Int)

/-- Integers of 64 bits with a sign. -/
def isInt64 (n : Int) : Bool :=
  -9223372036854775808 ≤ n && n < 9223372036854775808

/-- Integers of 64 bits without a sign. -/
def isNat64 (n : Int) : Bool :=
  0 ≤ n && n < 18446744073709551616

end QueryTree.Decimal

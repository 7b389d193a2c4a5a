import QueryTree.Decimal.Digits

/-!
# The fewest digits that read back

A finite binary number `m · 2 ^ q` is written with the fewest significant decimal digits that
still round to it, and among those with the nearest. All arithmetic is exact.

- `Dyadic`: a non-negative binary number, with the room around it that rounds to it.
- `Dyadic.ofBits`: the decoding of a 64-bit pattern, without its sign.
- `Dyadic.shortest`: digits and exponent of the shortest decimal.
-/

namespace QueryTree.Decimal

/-- The number `mantissa · 2 ^ exponent`. `narrowBelow` says that the next smaller number is
only half as far away as the next larger one. -/
structure Dyadic where
  mantissa : Nat
  exponent : Int
  narrowBelow : Bool
deriving Repr, DecidableEq

/-- The number `digits · 10 ^ exponent`. -/
structure Scientific where
  digits : Nat
  exponent : Int
deriving Repr, DecidableEq

/-- Decodes a finite 64-bit pattern; `none` for infinities and NaN. -/
def Dyadic.ofBits (bits : UInt64) : Option Dyadic :=
  let exponent : Nat := (bits.toNat / pow2 52) % pow2 11
  let fraction : Nat := bits.toNat % pow2 52
  if exponent = 2047 then none
  else if exponent = 0 then some ⟨fraction, -1074, false⟩
  else some ⟨pow2 52 + fraction, (exponent : Int) - 1075, fraction = 0 && 1 < exponent⟩

/-- A quarter of the number's last place as a fraction: `quarter · mantissa · 4` is the number.
The pair is numerator and denominator. -/
def Dyadic.quarter (x : Dyadic) : Nat × Nat :=
  if 2 ≤ x.exponent then (pow2 (x.exponent - 2).toNat, 1) else (1, pow2 (2 - x.exponent).toNat)

/-- The decimal exponent of the first digit of `num / den`, both positive. -/
def leadingExponent (num den : Nat) : Int :=
  if den ≤ num then (digitCount (num / den) : Int) - 1
  else -(digitCount ((den + num - 1) / num - 1) : Int)

/-- Multiplies a fraction by `10 ^ -p`. -/
def scaleDown (p : Int) (num den : Nat) : Nat × Nat :=
  if 0 ≤ p then (num, den * pow10 p.toNat) else (num * pow10 (-p).toNat, den)

/-- The grid of multiples of `10 ^ p`: the nearest of the two neighbours of the number that
round to it, the even one if both are as near. -/
def Dyadic.onGrid? (x : Dyadic) (p : Int) : Option Nat :=
  let (unit, den) := x.quarter
  let (unit, den) := scaleDown p unit den
  let value := 4 * x.mantissa * unit
  let high := (4 * x.mantissa + 2) * unit
  let low := (4 * x.mantissa - if x.narrowBelow then 1 else 2) * unit
  let closed := x.mantissa % 2 = 0
  let inside (n : Nat) : Bool :=
    if closed then low ≤ n * den && n * den ≤ high else low < n * den && n * den < high
  let below := value / den
  let above := below + 1
  match 0 < below && inside below, inside above with
  | false, false => none
  | true, false => some below
  | false, true => some above
  | true, true =>
    let toBelow := value - below * den
    let toAbove := above * den - value
    if toBelow < toAbove then some below
    else if toAbove < toBelow then some above
    else if below % 2 = 0 then some below else some above

/-- Takes the zeros at the end of the digits into the exponent. -/
def Scientific.normalize (d : Scientific) : Scientific :=
  let digits := natDigits d.digits
  let kept := (digits.reverse.dropWhile (· == '0')).reverse
  ⟨natOfDigits kept, d.exponent + ((digits.length - kept.length : Nat) : Int)⟩

/-- The coarsest grid, from one digit on, that has a point which rounds to the number.
Seventeen digits always suffice. -/
def Dyadic.shortest (x : Dyadic) : Scientific :=
  if x.mantissa = 0 then ⟨0, 0⟩
  else
    let (unit, den) := x.quarter
    let first := leadingExponent (4 * x.mantissa * unit) den
    let grids := (List.range 17).map fun (n : Nat) => first - (n : Int)
    match grids.findSome? fun p => (x.onGrid? p).map fun n => Scientific.mk n p with
    | some d => d.normalize
    | none => ⟨0, 0⟩

/-- The number rounded to a multiple of `10 ^ -places`, a half to the even neighbour, as that
many units. -/
def Dyadic.roundTo (x : Dyadic) (places : Nat) : Nat :=
  let (unit, den) := x.quarter
  let num := 4 * x.mantissa * unit * pow10 places
  let below := num / den
  let rest := num % den
  if 2 * rest < den then below
  else if den < 2 * rest then below + 1
  else if below % 2 = 0 then below else below + 1

end QueryTree.Decimal

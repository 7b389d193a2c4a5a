import QueryTree.Decimal.Shortest

/-!
# Text of floating-point numbers

- `Layout`: for which exponents the point is written in place.
- `floatText`: the text of a number inside messages and JSON text.
- `signedFixed`: an explicitly signed number with a given number of places.
- `floatOfDecimal`: the nearest number to a decimal.
-/

namespace QueryTree.Decimal

/-- The exponents of the first digit for which no power of ten is written. -/
structure Layout where
  plainFrom : Int
  plainBelow : Int

/-- Numbers from `0.00001` up to sixteen digits in front of the point are written in full. -/
def plainLayout : Layout :=
  ⟨-5, 16⟩

/-- The sign bit of a number. -/
def isNegativeBits (bits : UInt64) : Bool :=
  pow2 63 ≤ bits.toNat

/-- Lays out non-zero digits whose first one stands for `10 ^ e`. -/
def Layout.digits (layout : Layout) (ds : List Char) (e : Int) : List Char :=
  if layout.plainFrom ≤ e && e < layout.plainBelow then
    if 0 ≤ e then
      let size := e.toNat + 1
      let whole := ds.take size ++ List.replicate (size - ds.length) '0'
      let fraction := ds.drop size
      whole ++ ['.'] ++ if fraction.isEmpty then ['0'] else fraction
    else
      ['0', '.'] ++ List.replicate ((-e).toNat - 1) '0' ++ ds
  else
    let mantissa := if ds.length ≤ 1 then ds else ds.take 1 ++ ['.'] ++ ds.drop 1
    mantissa ++ ['e'] ++ (signedText e).toList

/-- Text of a number: the fewest digits that read back, always with a fraction or a power of
ten. What is not a finite number has the text `null`. -/
def floatText (x : Float) : String :=
  let bits := x.toBits
  match Dyadic.ofBits bits with
  | none => "null"
  | some d =>
    let sign := if isNegativeBits bits then ['-'] else []
    if d.mantissa = 0 then String.ofList (sign ++ ['0', '.', '0'])
    else
      let s := d.shortest
      let ds := natDigits s.digits
      String.ofList (sign ++ plainLayout.digits ds (s.exponent + (ds.length : Int) - 1))

/-- A number with its sign and exactly `places` digits after the point. -/
def signedFixed (places : Nat) (x : Float) : String :=
  let bits := x.toBits
  let units := ((Dyadic.ofBits bits).map (·.roundTo places)).getD 0
  let whole := natText (units / pow10 places)
  let fraction := natDigits (units % pow10 places)
  let padded := List.replicate (places - fraction.length) '0' ++ fraction
  (if isNegativeBits bits then "-" else "+") ++ whole ++ "." ++ String.ofList padded

/-- The floating-point number nearest to `digits · 10 ^ exponent`. Powers beyond the range of
the type are not built up. -/
def floatOfDecimal (negative : Bool) (digits : Nat) (exponent : Int) : Float :=
  let size := (digitCount digits : Int) + exponent
  let magnitude : Float :=
    if digits = 0 || size < -400 then 0
    else if 400 < size then Float.ofBits 0x7FF0000000000000
    else if exponent < 0 then Float.ofScientific digits true (-exponent).toNat
    else Float.ofScientific digits false exponent.toNat
  if negative then -magnitude else magnitude

/-- The floating-point number nearest to an integer. -/
def floatOfInt (n : Int) : Float :=
  floatOfDecimal (n < 0) n.natAbs 0

end QueryTree.Decimal

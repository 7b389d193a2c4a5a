import Mathlib.Algebra.Order.Field.Basic
import Mathlib.Algebra.Order.Ring.Abs
import Mathlib.Data.Rat.Cast.Order
import Mathlib.Tactic.Linarith
import Mathlib.Tactic.NormNum
import Mathlib.Tactic.Positivity
import QueryTree.Decimal.Format

/-!
# Integers as floating-point numbers

An integer of 64 bits without a sign that is too large for one with a sign has at most eleven bits
more than a floating-point number can hold. It is rounded to the nearest number of units of 2048,
and to the even one of two that are as near.

* `numberOf?`: the number that a floating-point number stands for.
* `nearestUnits`: the nearest number of units of 2048.
* `numberOf?_floatOfInt`: an integer is rounded to that many units.
* `nearest_of_numberOf?`: no floating-point number is nearer to it.
-/

namespace QueryTree.Decimal

open Float.Model (Format totalExponent)
open Float.Model.UnpackedFloat (ExtendedMantissa Sign roundWithAccuracy shiftToTargetExponent
  shiftToExponent)

/-! ## The numbers of floating-point numbers -/

/-- The number that a binary number with a sign stands for. -/
def Dyadic.number (negative : Bool) (x : Dyadic) : ℚ :=
  (if negative then -1 else 1) * x.mantissa * 2 ^ x.exponent

/-- The number that a floating-point number stands for; there is none for infinities and NaN. -/
def numberOf? (x : Float) : Option ℚ :=
  (Dyadic.ofBits x.toBits).map (Dyadic.number (isNegativeBits x.toBits))

/-- The number of units of 2048 that is nearest to a number, the even one if two are as near. -/
def nearestUnits (n : Nat) : Nat :=
  if n % 2048 < 1024 then n / 2048
  else if n % 2048 = 1024 then n / 2048 + n / 2048 % 2
  else n / 2048 + 1

/-! ## Rounding -/

/-- Bits that are shifted out are remembered: the last of them, and whether there were others. -/
theorem shift_exact (m s : Nat) :
    (⟨m, false, false⟩ : ExtendedMantissa) >>> (s + 1)
      = ⟨m / 2 ^ (s + 1), m / 2 ^ s % 2 != 0, m % 2 ^ s != 0⟩ := by
  induction s with
  | zero =>
      show ExtendedMantissa.shiftRightOne ⟨m, false, false⟩ = _
      simp [ExtendedMantissa.shiftRightOne, Nat.mod_one]
  | succ s ih =>
      have hstep : (⟨m, false, false⟩ : ExtendedMantissa) >>> (s + 1 + 1)
          = ((⟨m, false, false⟩ : ExtendedMantissa) >>> (s + 1)).shiftRightOne := rfl
      have hsticky : (m / 2 ^ s % 2 != 0 || m % 2 ^ s != 0) = (m % 2 ^ (s + 1) != 0) := by
        rw [Nat.mod_pow_succ, Bool.eq_iff_iff]
        have hpow : 0 < 2 ^ s := Nat.two_pow_pos s
        simp only [Bool.or_eq_true, bne_iff_ne]
        constructor
        · rintro (h | h) hsum
          · rcases Nat.mul_eq_zero.1 (Nat.eq_zero_of_add_eq_zero_left hsum) with hzero | hzero
            · omega
            · exact h hzero
          · exact h (Nat.eq_zero_of_add_eq_zero_right hsum)
        · intro h
          by_contra hboth
          push Not at hboth
          simp [hboth] at h
      rw [hstep, ih, ExtendedMantissa.shiftRightOne]
      simp only [hsticky, Nat.div_div_eq_div_mul, ← Nat.pow_succ]

/-- Shifted to eleven places before the point, an integer is rounded to its nearest units. -/
theorem roundedMantissa_shift (n : Nat) :
    ((⟨n * 2 ^ 53, false, false⟩ : ExtendedMantissa) >>> 64).roundedMantissa = nearestUnits n := by
  have hmantissa : n * 2 ^ 53 / 2 ^ (63 + 1) = n / 2048 := by omega
  have hround : n * 2 ^ 53 / 2 ^ 63 = n / 1024 := by omega
  have hsticky : (n * 2 ^ 53 % 2 ^ 63 != 0) = (n % 1024 != 0) := by
    rw [Bool.eq_iff_iff, bne_iff_ne, bne_iff_ne]
    omega
  rw [shift_exact, hmantissa, hround, hsticky]
  unfold nearestUnits
  -- the two bits say on which side of the middle the number lies
  rcases Nat.mod_two_eq_zero_or_one (n / 1024) with hbit | hbit
  · have hlow : n % 2048 < 1024 := by omega
    rw [if_pos hlow, hbit]
    by_cases hrest : n % 1024 = 0
    · simp [hrest, ExtendedMantissa.roundedMantissa, ExtendedMantissa.accuracy,
        Float.Model.UnpackedFloat.Accuracy.roundToNearestEven]
    · have hrest' : (n % 1024 != 0) = true := bne_iff_ne.2 hrest
      simp [hrest', ExtendedMantissa.roundedMantissa, ExtendedMantissa.accuracy,
        Float.Model.UnpackedFloat.Accuracy.roundToNearestEven]
  · have hhigh : ¬ n % 2048 < 1024 := by omega
    rw [if_neg hhigh, hbit]
    by_cases hrest : n % 1024 = 0
    · have hmiddle : n % 2048 = 1024 := by omega
      simp [hrest, hmiddle, ExtendedMantissa.roundedMantissa, ExtendedMantissa.accuracy,
        Float.Model.UnpackedFloat.Accuracy.roundToNearestEven]
    · have hrest' : (n % 1024 != 0) = true := bne_iff_ne.2 hrest
      have habove : n % 2048 ≠ 1024 := by omega
      simp [hrest', habove, ExtendedMantissa.roundedMantissa, ExtendedMantissa.accuracy,
        Float.Model.UnpackedFloat.Accuracy.roundToNearestEven]

theorem nearestUnits_bounds {n : Nat} (lo : 2 ^ 63 ≤ n) (hi : n < 2 ^ 64) :
    2 ^ 52 ≤ nearestUnits n ∧ nearestUnits n ≤ 2 ^ 53 := by
  unfold nearestUnits
  split
  · omega
  · split <;> omega

theorem log2_eq {m k : Nat} (lo : 2 ^ k ≤ m) (hi : m < 2 ^ (k + 1)) : m.log2 = k :=
  (Nat.log2_eq_iff (Nat.pos_iff_ne_zero.1 (Nat.lt_of_lt_of_le (Nat.two_pow_pos k) lo))).2 ⟨lo, hi⟩

/-- A number of 53 bits and more is shifted to 53 bits. -/
theorem shiftToTargetExponent_eq (m k : Nat) (e : Int) (lo : 2 ^ (52 + k) ≤ m)
    (hi : m < 2 ^ (52 + k + 1)) (he : -1074 ≤ e + k) :
    shiftToTargetExponent Format.binary64 m e .exact
      = ((⟨m, false, false⟩ : ExtendedMantissa) >>> k, e + k) := by
  have hbits : Format.binary64.mantissaBits = 53 := rfl
  have htarget : Format.binary64.targetExponent (totalExponent m e) = e + k := by
    simp only [Format.targetExponent, totalExponent, log2_eq lo hi, hbits, Format.minExponent]
    omega
  have hamount : (e + k - e).toNat = k := by omega
  rw [shiftToTargetExponent, htarget, shiftToExponent, hamount]
  rfl

/-- A number is rounded in two shifts, of which the second loses nothing. -/
theorem roundWithAccuracy_eq {mantissa m : Nat} {exponent e e' : Int} {em em' : ExtendedMantissa}
    (hfirst : shiftToTargetExponent Format.binary64 mantissa exponent .exact = (em, e'))
    (hsecond : shiftToTargetExponent Format.binary64 em.roundedMantissa e' .exact = (em', e))
    (hmantissa : em'.mantissa = m) (hm : 0 < m) :
    roundWithAccuracy Format.binary64 .positive mantissa exponent .exact
      = .finite .positive m e hm := by
  subst hmantissa
  rw [roundWithAccuracy, hfirst]
  dsimp only
  rw [hsecond]
  exact dif_neg (Nat.ne_of_gt hm)

/-- **An integer between `2 ^ 63` and `2 ^ 64` is rounded to its nearest units.** -/
theorem roundWithAccuracy_units {n : Nat} (lo : 2 ^ 63 ≤ n) (hi : n < 2 ^ 64) :
    ∃ (m e : Nat) (hm : 0 < m),
      roundWithAccuracy Format.binary64 .positive (n * 2 ^ 53) (-53) .exact
          = .finite .positive m e hm
        ∧ 2 ^ 52 ≤ m ∧ m < 2 ^ 53 ∧ e ≤ 12 ∧ m * 2 ^ e = 2048 * nearestUnits n := by
  obtain ⟨hleast, hmost⟩ := nearestUnits_bounds lo hi
  have hfirst : shiftToTargetExponent Format.binary64 (n * 2 ^ 53) (-53) .exact
      = ((⟨n * 2 ^ 53, false, false⟩ : ExtendedMantissa) >>> 64, 11) :=
    shiftToTargetExponent_eq (n * 2 ^ 53) 64 (-53) (by omega) (by omega) (by decide)
  by_cases hcarry : nearestUnits n = 2 ^ 53
  · -- rounding up to a power of two makes one more shift necessary
    have hsecond := shiftToTargetExponent_eq (2 ^ 53) 1 11 (by decide) (by decide) (by decide)
    rw [← hcarry, ← roundedMantissa_shift] at hsecond
    refine ⟨2 ^ 52, 12, by decide, roundWithAccuracy_eq hfirst hsecond ?_ (by decide), by decide,
      by decide, by decide, ?_⟩
    · rw [roundedMantissa_shift, hcarry]
      rfl
    · rw [hcarry]
      rfl
  · have hsecond := shiftToTargetExponent_eq (nearestUnits n) 0 11 hleast (by omega) (by decide)
    rw [← roundedMantissa_shift] at hsecond
    refine ⟨nearestUnits n, 11, by omega, roundWithAccuracy_eq hfirst hsecond ?_ (by omega), hleast,
      by omega, by decide, by omega⟩
    exact roundedMantissa_shift n

/-! ## Bits -/

/-- A number with all its bits is packed with its exponent, which is not that of an infinity. -/
theorem toNat_toBits_pack {m biased : Nat} {e : Int} (hm : 0 < m)
    (hbiased : (e + Format.binary64.exponentBias
      + Format.binary64.mantissaBitsWithoutImplicit).toNat = biased)
    (hfinite : ¬ 2 ^ Format.binary64.exponentBits ≤ biased + 1)
    (hnormal : m.log2 + 1 = Format.binary64.mantissaBits) :
    (Float.Model.pack (.finite .positive m e hm)).toBits.toNat
      = (Float.Model.UnpackedFloat.packComponents Format.binary64 .positive
        (BitVec.ofNat _ biased) (BitVec.ofNat _ m)).toNat := by
  subst hbiased
  exact congrArg BitVec.toNat ((if_neg hfinite).trans (if_pos hnormal))

/-- The bits of a number of 53 bits: its exponent, and its mantissa without the first bit. -/
theorem toNat_pack {m e : Nat} (lo : 2 ^ 52 ≤ m) (hi : m < 2 ^ 53) (he : e ≤ 900) (hm : 0 < m) :
    (Float.Model.pack (.finite .positive m e hm)).toBits.toNat
      = (e + 1075) * 2 ^ 52 + (m - 2 ^ 52) := by
  have hbiased : ((e : Int) + Format.binary64.exponentBias
      + Format.binary64.mantissaBitsWithoutImplicit).toNat = e + 1075 := by
    show ((e : Int) + 1023 + 52).toNat = e + 1075
    omega
  have hfinite : ¬ 2 ^ Format.binary64.exponentBits ≤ e + 1075 + 1 := by
    show ¬ 2 ^ 11 ≤ e + 1075 + 1
    omega
  have hnormal : m.log2 + 1 = Format.binary64.mantissaBits := by
    rw [log2_eq lo hi]
    rfl
  rw [toNat_toBits_pack hm hbiased hfinite hnormal, Float.Model.UnpackedFloat.packComponents]
  have hexponent : (e + 1075) % 2 ^ 11 = e + 1075 := by omega
  have hmantissa : m % 2 ^ 52 = m - 2 ^ 52 := by omega
  have hfits : m - 2 ^ 52 < 2 ^ 52 := by omega
  rw [BitVec.toNat_append, BitVec.toNat_append, BitVec.toNat_ofNat, BitVec.toNat_ofNat, hexponent,
    hmantissa, ← Nat.shiftLeft_add_eq_or_of_lt hfits, Nat.shiftLeft_eq]
  simp [Sign.toBitVec]

/-- What the bits of a number of 53 bits are read as. -/
theorem ofBits_eq {bits : UInt64} {m e : Nat} (lo : 2 ^ 52 ≤ m) (hi : m < 2 ^ 53) (he : e ≤ 900)
    (h : bits.toNat = (e + 1075) * 2 ^ 52 + (m - 2 ^ 52)) :
    ∃ narrow, Dyadic.ofBits bits = some ⟨m, e, narrow⟩ ∧ isNegativeBits bits = false := by
  have hexponent : bits.toNat / pow2 52 % pow2 11 = e + 1075 := by
    simp only [h, pow2, Nat.pow_eq]
    omega
  have hfraction : bits.toNat % pow2 52 = m - 2 ^ 52 := by
    simp only [h, pow2, Nat.pow_eq]
    omega
  have hmantissa : pow2 52 + (m - 2 ^ 52) = m := by
    simp only [pow2, Nat.pow_eq]
    omega
  have hvalue : ((e + 1075 : Nat) : Int) - 1075 = e := by omega
  refine ⟨decide (m - 2 ^ 52 = 0 ∧ 1 < e + 1075), ?_, ?_⟩
  · simp only [Dyadic.ofBits, hexponent, hfraction, hmantissa, hvalue]
    rw [if_neg (by omega), if_neg (by omega)]
    simp
  · simp only [isNegativeBits, h, pow2, Nat.pow_eq, decide_eq_false_iff_not]
    omega

/-- An integer beyond 53 bits is rounded from its exact value. -/
theorem ofScientific_eq {n : Nat} (h : n ≠ 0) :
    Float.Model.UnpackedFloat.ofScientific Format.binary64 n 0
      = roundWithAccuracy Format.binary64 .positive (n * 2 ^ 53) (-53) .exact := by
  have hhuge : ¬ (0 : Int) > 2 ^ Format.binary64.exponentBits := by decide
  have htiny : ¬ (0 : Int) < -((2 ^ Format.binary64.exponentBits : Int) + n.log2) := by
    show ¬ (0 : Int) < -(2 ^ 11 + n.log2)
    omega
  rw [Float.Model.UnpackedFloat.ofScientific, dif_neg h, if_neg hhuge, if_neg htiny,
    if_pos (Int.le_refl 0)]
  show roundWithAccuracy Format.binary64 .positive (n <<< 53 * 1) (-53 + 0) .exact = _
  rw [Nat.mul_one, Nat.shiftLeft_eq, Int.add_zero]

theorem floatOfInt_eq {n : Nat} (lo : 2 ^ 53 ≤ n) (hi : n < 2 ^ 64) :
    floatOfInt n = Float.ofModel (Float.Model.pack
      (roundWithAccuracy Format.binary64 .positive (n * 2 ^ 53) (-53) .exact)) := by
  have hzero : n ≠ 0 := by omega
  have hsign : ¬ (n : Int) < 0 := by omega
  have hcount : digitCount n ≤ 20 := by
    rw [digitCount, if_neg hzero]
    exact (Nat.length_toDigits_le_iff (by decide) (by decide)).2 (by omega)
  have hslow : ¬ (n < 2 ^ 53 ∧ 0 ≤ 22) := by omega
  have hscientific : Float.ofScientific n false 0
      = Float.ofModel (Float.Model.pack
        (Float.Model.UnpackedFloat.ofScientific Format.binary64 n 0)) := by
    rw [Float.ofScientific, dif_neg hslow]
    rfl
  rw [← ofScientific_eq hzero, ← hscientific, floatOfInt, floatOfDecimal]
  simp only [Int.natAbs_natCast, hsign, decide_false, Int.add_zero]
  have hnear : ¬ (n = 0 ∨ (digitCount n : Int) < -400) := by omega
  have hbelow : ¬ 400 < (digitCount n : Int) := by omega
  simp [hnear, hbelow]

/-- **An integer that is too large for 64 bits with a sign is bound as its nearest units.** -/
theorem numberOf?_floatOfInt {n : Nat} (lo : 2 ^ 63 ≤ n) (hi : n < 2 ^ 64) :
    numberOf? (floatOfInt n) = some ((2048 * nearestUnits n : Nat) : ℚ) := by
  obtain ⟨m, e, hm, hround, hleast, hmost, he, hvalue⟩ := roundWithAccuracy_units lo hi
  have hbits := toNat_pack hleast hmost (he.trans (by decide)) hm
  obtain ⟨narrow, hread, hsign⟩ := ofBits_eq hleast hmost (he.trans (by decide)) hbits
  have htoBits : (floatOfInt n).toBits = (Float.Model.pack (.finite .positive m e hm)).toBits := by
    rw [floatOfInt_eq (by omega) hi, hround]
    rfl
  rw [numberOf?, htoBits, hread, hsign, Option.map_some, Dyadic.number, ← hvalue]
  simp

/-! ## Nearness -/

theorem abs_nearestUnits_sub_le (n : Nat) :
    |((2048 * nearestUnits n : Nat) : ℤ) - n| ≤ 1024 := by
  rw [abs_le]
  unfold nearestUnits
  split
  · omega
  · split <;> omega

/-- No number of units is nearer. -/
theorem abs_nearestUnits_sub_le_units (n k : Nat) :
    |((2048 * nearestUnits n : Nat) : ℤ) - n| ≤ |((2048 * k : Nat) : ℤ) - n| := by
  by_cases hk : k = nearestUnits n
  · rw [hk]
  · have hnear := abs_nearestUnits_sub_le n
    refine hnear.trans (le_abs.2 ?_)
    rw [abs_le] at hnear
    omega

/-- An integer is its own nearest units exactly if it has no rest. -/
theorem nearestUnits_eq_iff (n : Nat) : 2048 * nearestUnits n = n ↔ 2048 ∣ n := by
  unfold nearestUnits
  split
  · omega
  · split <;> omega

/-- Between two numbers of units that are as near, the even one is taken. -/
theorem even_of_tie (n : Nat) (h : |((2048 * nearestUnits n : Nat) : ℤ) - n| = 1024) :
    2 ∣ nearestUnits n := by
  have hsides := abs_eq (by decide : (0 : ℤ) ≤ 1024) |>.1 h
  unfold nearestUnits at hsides ⊢
  split at hsides
  · omega
  · split at hsides
    · next hlow hmiddle =>
        rw [if_neg hlow, if_pos hmiddle]
        omega
    · omega

/-- The mantissa of a floating-point number has 53 bits. -/
theorem Dyadic.mantissa_lt {bits : UInt64} {x : Dyadic} (h : Dyadic.ofBits bits = some x) :
    x.mantissa < 2 ^ 53 := by
  have hfraction : bits.toNat % pow2 52 < 2 ^ 52 := Nat.mod_lt _ (by decide)
  have hleading : pow2 52 = 2 ^ 52 := rfl
  simp only [Dyadic.ofBits] at h
  split at h
  · cases h
  · split at h
    · cases h
      show bits.toNat % pow2 52 < 2 ^ 53
      omega
    · cases h
      show pow2 52 + bits.toNat % pow2 52 < 2 ^ 53
      omega

/-- **No floating-point number is nearer to an integer from `2 ^ 63` on than its nearest units.** -/
theorem nearest_of_numberOf? {n : Nat} (lo : 2 ^ 63 ≤ n) {y : Float} {r : ℚ}
    (hy : numberOf? y = some r) : |((2048 * nearestUnits n : Nat) : ℚ) - n| ≤ |r - n| := by
  have hunits : ∀ k : Nat,
      |((2048 * nearestUnits n : Nat) : ℚ) - n| ≤ |((2048 * k : Nat) : ℚ) - n| := by
    intro k
    exact_mod_cast abs_nearestUnits_sub_le_units n k
  obtain ⟨x, hx, rfl⟩ := Option.map_eq_some_iff.1 hy
  have hmantissa : (x.mantissa : ℚ) < 2 ^ 53 := by exact_mod_cast Dyadic.mantissa_lt hx
  have hpow : (0 : ℚ) < 2 ^ x.exponent := zpow_pos (by norm_num) _
  have hlow : (2 : ℚ) ^ 63 ≤ n := by exact_mod_cast lo
  -- what is at most `2 ^ 63` is no nearer than `2 ^ 63`, which is a number of units
  have hbelow : ∀ r : ℚ, r ≤ 2 ^ 63 → |((2048 * nearestUnits n : Nat) : ℚ) - n| ≤ |r - n| := by
    intro r hr
    refine (hunits (2 ^ 52)).trans ?_
    rw [abs_sub_comm, abs_sub_comm r]
    refine abs_le_abs_of_nonneg ?_ ?_
    · push_cast
      linarith
    · push_cast
      linarith
  cases hsign : isNegativeBits y.toBits with
  | true =>
      refine hbelow _ ?_
      have hnonneg : (0 : ℚ) ≤ x.mantissa * 2 ^ x.exponent := by positivity
      simp only [Dyadic.number, if_true]
      linarith
  | false =>
      by_cases hexponent : x.exponent ≤ 10
      · refine hbelow _ ?_
        have hpow10 : (2 : ℚ) ^ x.exponent ≤ 2 ^ (10 : ℤ) :=
          zpow_le_zpow_right₀ (by norm_num) hexponent
        have hproduct : (x.mantissa : ℚ) * 2 ^ x.exponent ≤ 2 ^ 53 * 2 ^ (10 : ℤ) :=
          mul_le_mul hmantissa.le hpow10 hpow.le (by norm_num)
        simp only [Dyadic.number, Bool.false_eq_true, if_false, one_mul]
        refine hproduct.trans ?_
        norm_num
      · obtain ⟨k, hk⟩ : ∃ k : Nat, x.exponent = 11 + k := ⟨(x.exponent - 11).toNat, by omega⟩
        have hvalue : Dyadic.number false x = ((2048 * (x.mantissa * 2 ^ k) : Nat) : ℚ) := by
          simp only [Dyadic.number, Bool.false_eq_true, if_false, one_mul, hk]
          rw [zpow_add₀ (by norm_num)]
          push_cast
          norm_num
          rw [mul_left_comm]
        rw [hvalue]
        exact hunits _

end QueryTree.Decimal

import Mathlib.Data.Int.Log
import R3000.FloatUnit
import R3000.Proofs.PatternValues

/-!
# What is relied on of a library

An operation is rounded correctly if its answer is what the exact result becomes when it is rounded
once: to a multiple of the last place that the format has at its magnitude, in the direction asked
for. The answer is inexact if that changes the result. A result that a finite pattern denotes is
such a multiple already, so its answer is that pattern, and nothing is raised.

This is the meaning of the standard for binary floating point arithmetic, for the operations of a
library that the statements about single instructions rely on: products, conversions between formats
and from integers, conversions to integers, and the order of numbers. Nothing is said about results
that are too large for the format.
-/
namespace R3000

open Floating

namespace Floating

/-! ### Rounding to integers -/

/-- The integer to which a number is rounded. The two nearest integers are its floor and the one
after that; half way between them the even one is taken. -/
def Mode.integer (mode : Mode) (value : ℚ) : ℤ :=
  match mode with
  | .nearestEven =>
    if value - ⌊value⌋ < 1 / 2 then ⌊value⌋
    else if 1 / 2 < value - ⌊value⌋ then ⌊value⌋ + 1
    else if ⌊value⌋ % 2 = 0 then ⌊value⌋
    else ⌊value⌋ + 1
  | .towardZero => if 0 ≤ value then ⌊value⌋ else ⌈value⌉
  | .towardPositive => ⌈value⌉
  | .towardNegative => ⌊value⌋

theorem Mode.integer_intCast (mode : Mode) (number : ℤ) : mode.integer number = number := by
  cases mode <;> simp [integer]

theorem isInt_intCast (number : ℤ) : (number : ℚ).isInt = true := rfl

/-- Only an integer is rounded to itself. -/
theorem Mode.integer_eq_iff (mode : Mode) (value : ℚ) :
    (mode.integer value : ℚ) = value ↔ value.isInt = true := by
  constructor
  · intro same
    rw [← same]
    exact isInt_intCast _
  · intro whole
    have same : (value.num : ℚ) = value := Rat.den_eq_one_iff value |>.mp (beq_iff_eq.mp whole)
    rw [← same, integer_intCast]

namespace Format

variable (format : Format)

/-! ### Rounding to a format -/

/-- The exponent of the last place that the format has at the magnitude of a number. -/
def quantumExponent (exact : ℚ) : ℤ :=
  max format.leastExponent (Int.log 2 |exact| - format.fractionBits)

/-- A number rounded to a multiple of its last place, as if there were no greatest exponent. -/
def rounded (mode : Mode) (exact : ℚ) : ℚ :=
  mode.integer (exact / 2 ^ format.quantumExponent exact) * 2 ^ format.quantumExponent exact

/-- The answer for an exact result, with the sign of that result: the rounded result, which is
inexact if it is another number. Only an inexact result underflows. -/
structure RoundsTo (mode : Mode) (negative : Bool) (exact : ℚ) (answer : Answer format.width) :
    Prop where
  finite : format.isFinite answer.bits = true
  value : format.value answer.bits = format.rounded mode exact
  sign : answer.bits.msb = negative
  inexact : answer.flags.inexact = true ↔ format.rounded mode exact ≠ exact
  underflow : answer.flags.underflow = true → answer.flags.inexact = true
  overflow : answer.flags.overflow = false
  divByZero : answer.flags.divByZero = false
  invalid : answer.flags.invalid = false

/-- The answer is the rounded result, unless that is too large for the format. -/
def CorrectlyRounded (mode : Mode) (negative : Bool) (exact : ℚ) (answer : Answer format.width) :
    Prop :=
  |format.rounded mode exact| < 2 ^ (format.bias + 1) → format.RoundsTo mode negative exact answer

variable {format}

/-! ### Results that need no rounding -/

/-- A pattern has no more places than the format has at its value. -/
theorem quantumExponent_value_le {pattern : BitVec format.width}
    (nonzero : format.value pattern ≠ 0) :
    format.quantumExponent (format.value pattern) ≤ format.exponent pattern := by
  have normalized := format.normalized pattern
  have scale : (0 : ℚ) < 2 ^ format.exponent pattern := zpow_pos two_pos _
  have fits : (format.significand pattern : ℚ) < 2 ^ (format.fractionBits + 1) := by
    exact_mod_cast normalized.fits
  have below : |format.value pattern| <
      ((2 : ℕ) : ℚ) ^ (((format.fractionBits + 1 : ℕ) : ℤ) + format.exponent pattern) := by
    rw [value, abs_number, Nat.cast_ofNat, zpow_add₀ two_ne_zero, zpow_natCast]
    exact mul_lt_mul_of_pos_right fits scale
  -- So its leading bit is at most as many places above the exponent as a fraction has.
  have leading := (Int.lt_zpow_iff_log_lt one_lt_two (abs_pos.mpr nonzero)).mp below
  refine max_le normalized.least_le ?_
  push_cast at leading
  omega

/-- A multiple of the last place needs no rounding, and nothing else is left as it is. -/
theorem rounded_eq_iff (mode : Mode) (exact : ℚ) :
    format.rounded mode exact = exact ↔
      (exact / 2 ^ format.quantumExponent exact).isInt = true := by
  have scale : (2 : ℚ) ^ format.quantumExponent exact ≠ 0 := zpow_ne_zero _ two_ne_zero
  rw [← Mode.integer_eq_iff mode, rounded, eq_div_iff scale]

/-- In every direction the value of a pattern is rounded to itself. -/
theorem rounded_value (mode : Mode) (pattern : BitVec format.width) :
    format.rounded mode (format.value pattern) = format.value pattern := by
  rw [rounded_eq_iff]
  by_cases zero : format.value pattern = 0
  · rw [zero, zero_div]
    rfl
  · have places := quantumExponent_value_le zero
    generalize format.quantumExponent (format.value pattern) = place at places ⊢
    have scale : (2 : ℚ) ^ place ≠ 0 := zpow_ne_zero _ two_ne_zero
    rw [value, ← number_shifted _ _ places, number, mul_div_cancel_right₀ _ scale]
    exact isInt_intCast _

variable (format) in
/-- The exponent field of one is in the middle of its range. -/
theorem two_pow_exponentBits (exponents : 1 < format.exponentBits) :
    2 ^ format.exponentBits = 2 * format.bias + 2 ∧ 1 ≤ format.bias := by
  obtain ⟨places, bits⟩ := Nat.exists_eq_add_of_lt exponents
  have positive := Nat.two_pow_pos places
  rw [bias, bits, Nat.add_sub_cancel, Nat.add_comm 1, Nat.pow_succ, Nat.pow_succ]
  omega

/-- Finite patterns denote numbers that are not too large. -/
theorem abs_value_lt (exponents : 1 < format.exponentBits) {pattern : BitVec format.width}
    (finite : format.isFinite pattern = true) :
    |format.value pattern| < 2 ^ (format.bias + 1) := by
  have scale : (0 : ℚ) < 2 ^ format.exponent pattern := zpow_pos two_pos _
  have fits : (format.significand pattern : ℚ) < 2 ^ (format.fractionBits + 1) := by
    exact_mod_cast (format.normalized pattern).fits
  have greatest : format.exponent pattern + ((format.fractionBits + 1 : ℕ) : ℤ) ≤
      ((format.bias + 1 : ℕ) : ℤ) := by
    have field := (format.exponentField pattern).isLt
    have part : (format.exponentField pattern).toNat ≠ 2 ^ format.exponentBits - 1 := by
      rw [← BitVec.toNat_allOnes, ne_eq, BitVec.toNat_inj]
      exact bne_iff_ne.mp finite
    have range := format.two_pow_exponentBits exponents
    simp only [exponent]
    omega
  calc |format.value pattern|
      = (format.significand pattern : ℚ) * 2 ^ format.exponent pattern := abs_number _ _ _
    _ < 2 ^ (format.fractionBits + 1) * 2 ^ format.exponent pattern :=
      mul_lt_mul_of_pos_right fits scale
    _ = 2 ^ (format.exponent pattern + ((format.fractionBits + 1 : ℕ) : ℤ)) := by
      rw [zpow_add₀ two_ne_zero, zpow_natCast, mul_comm]
    _ ≤ 2 ^ ((format.bias + 1 : ℕ) : ℤ) := zpow_le_zpow_right₀ one_le_two greatest
    _ = 2 ^ (format.bias + 1) := zpow_natCast _ _

/-- The answer for a result that a pattern denotes is that pattern, and nothing is raised. -/
theorem CorrectlyRounded.eq_of_value {mode : Mode} {negative : Bool} {exact : ℚ}
    {answer : Answer format.width} {pattern : BitVec format.width}
    (correct : format.CorrectlyRounded mode negative exact answer)
    (exponents : 1 < format.exponentBits) (finite : format.isFinite pattern = true)
    (value : format.value pattern = exact) (sign : pattern.msb = negative) :
    answer = ⟨pattern, .none⟩ := by
  have same : format.rounded mode exact = exact := by rw [← value, rounded_value]
  have small : |format.rounded mode exact| < 2 ^ (format.bias + 1) := by
    rw [same, ← value]
    exact abs_value_lt exponents finite
  have rounds := correct small
  have bits : answer.bits = pattern :=
    eq_of_value_eq (rounds.value.trans (same.trans value.symm)) (rounds.sign.trans sign.symm)
  -- An answer that is not inexact does not underflow either.
  have quiet : answer.flags.inexact = false := by
    rw [← Bool.not_eq_true, rounds.inexact]
    exact not_not.mpr same
  have deep : answer.flags.underflow = false := by
    rw [← Bool.not_eq_true]
    intro underflows
    rw [rounds.underflow underflows] at quiet
    cases quiet
  obtain ⟨result, ⟨inexact, underflow, overflow, divByZero, invalid⟩⟩ := answer
  cases bits
  cases quiet
  cases deep
  cases rounds.overflow
  cases rounds.divByZero
  cases rounds.invalid
  rfl

end Format

end Floating

/-! ### Libraries -/

namespace Precision

variable (precision : Precision)

theorem one_lt_exponentBits : 1 < precision.format.exponentBits := by
  cases precision <;> decide

theorem infinityMagnitude_pos : 0 < precision.format.infinityMagnitude := by
  cases precision <;> decide

end Precision

namespace Floating.Arithmetic

variable (arithmetic : Arithmetic)

/-- Two numbers are compared by what they denote, in which zeros have no sign. No order is found if
one of the operands is not a number. -/
def ComparesNumbers : Prop :=
  ∀ (precision : Precision) (a b : BitVec precision.format.width),
    arithmetic.compare precision.format a b =
      if precision.format.Unordered a b then none
      else some (cmp (precision.format.point a) (precision.format.point b))

/-- The product of finite numbers is rounded correctly. It has a sign if just one of the factors has
one. So has the product of an infinity with a finite number other than zero, which is an
infinity. -/
structure MultipliesCorrectly : Prop where
  finite : ∀ (precision : Precision) (mode : Mode) {a b : BitVec precision.format.width},
    precision.format.isFinite a = true → precision.format.isFinite b = true →
    precision.format.CorrectlyRounded mode (a.msb != b.msb)
      (precision.format.value a * precision.format.value b)
      (arithmetic.mul precision.format mode a b)
  infinite : ∀ (precision : Precision) (mode : Mode) {a b : BitVec precision.format.width},
    precision.format.isInfinite a = true → precision.format.isFinite b = true →
    precision.format.value b ≠ 0 →
    arithmetic.mul precision.format mode a b =
      ⟨precision.format.packInfinity (a.msb != b.msb), .none⟩

/-- A number is rounded correctly when it is converted to a format, from another one or from an
integer of 128 bits. An infinity stays one. -/
structure ConvertsCorrectly : Prop where
  finite : ∀ (source target : Precision) (mode : Mode) {a : BitVec source.format.width},
    source.format.isFinite a = true →
    target.format.CorrectlyRounded mode a.msb (source.format.value a)
      (arithmetic.convert source.format target.format mode a)
  infinite : ∀ (source target : Precision) (mode : Mode) {a : BitVec source.format.width},
    source.format.isInfinite a = true →
    arithmetic.convert source.format target.format mode a =
      ⟨target.format.packInfinity a.msb, .none⟩
  integer : ∀ (precision : Precision) (mode : Mode) {value : ℤ},
    -2 ^ 127 ≤ value → value < 2 ^ 127 →
    precision.format.CorrectlyRounded mode (value < 0) value
      (arithmetic.ofInteger precision.format mode value)

/-- A finite number is rounded to an integer. If a signed word of the width, of two bits or more,
holds that integer it is the answer, which is inexact unless the number is an integer itself.
Everything else is an invalid operand. A pattern is known not to be a number, and to be negative if
it has the sign. -/
structure ConvertsToIntegers : Prop where
  fits : ∀ (precision : Precision) (mode : Mode) {width : ℕ} {a : BitVec precision.format.width},
    1 < width → width ≤ 128 → precision.format.isFinite a = true →
    -2 ^ (width - 1) ≤ mode.integer (precision.format.value a) →
    mode.integer (precision.format.value a) < 2 ^ (width - 1) →
    arithmetic.toInteger precision.format mode width a =
      ⟨mode.integer (precision.format.value a),
        { inexact := !(precision.format.value a).isInt }⟩
  invalid : ∀ (precision : Precision) (mode : Mode) {width : ℕ}
    {a : BitVec precision.format.width}, 1 < width → width ≤ 128 →
    ¬(precision.format.isFinite a = true ∧
      -2 ^ (width - 1) ≤ mode.integer (precision.format.value a) ∧
      mode.integer (precision.format.value a) < 2 ^ (width - 1)) →
    (arithmetic.toInteger precision.format mode width a).flags = { invalid := true }
  isNan : ∀ (precision : Precision) (a : BitVec precision.format.width),
    arithmetic.isNan precision.format a = precision.format.isNan a
  isNegative : ∀ (precision : Precision) (a : BitVec precision.format.width),
    arithmetic.isNegative precision.format a = a.msb

end Floating.Arithmetic

end R3000

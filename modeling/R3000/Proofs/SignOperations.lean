import R3000.Proofs.SoftwareArithmetic
import R3000.Proofs.UnitOperations

/-!
# Negation and absolute value

Negation multiplies by minus one. The exact product is the operand with the other sign, which the
format has: so negation inverts the sign of every operand that is a number, of a zero as of an
infinity, and raises nothing.

The absolute value negates what compares less than zero. A negative zero compares equal to zero: it
is returned as it is, with its sign, although its negation would be the positive zero.
-/
namespace R3000

open Floating

namespace Precision

variable (precision : Precision)

/-! ### Constants -/

theorem minusOne :
    precision.format.isFinite precision.format.minusOne = true ∧
      precision.format.minusOne.msb = true ∧
      precision.format.value precision.format.minusOne = -1 := by
  cases precision <;> decide +kernel

theorem zero :
    precision.format.isNan (precision.format.packZero false) = false ∧
      precision.format.signMagnitude (precision.format.packZero false) = 0 := by
  cases precision <;> decide +kernel

end Precision

/-! ### Numbers -/

namespace Floating.Arithmetic

variable {arithmetic : Arithmetic} {precision : Precision} {a b : BitVec precision.format.width}

/-- Patterns that denote numbers are compared as magnitudes with signs. -/
theorem ComparesNumbers.compare_eq (compares : arithmetic.ComparesNumbers)
    (a b : BitVec precision.format.width) :
    arithmetic.compare precision.format a b =
      if precision.format.Unordered a b then none
      else some (cmp (precision.format.signMagnitude a) (precision.format.signMagnitude b)) := by
  rw [compares]
  by_cases odd : precision.format.Unordered a b
  · rw [if_pos odd, if_pos odd]
  · obtain ⟨number, counted⟩ := not_or.mp odd
    rw [if_neg odd, if_neg odd, Format.cmp_point precision.infinityMagnitude_pos
      (Bool.eq_false_of_not_eq_true number) (Bool.eq_false_of_not_eq_true counted)]

/-- The negation of a number is its pattern with the sign bit inverted. -/
theorem MultipliesCorrectly.neg_eq (multiplies : arithmetic.MultipliesCorrectly) (mode : Mode)
    (number : precision.format.isNan a = false) :
    arithmetic.neg precision.format mode a =
      ⟨a ^^^ BitVec.intMin precision.format.width, .none⟩ := by
  obtain ⟨finite, sign, one⟩ := precision.minusOne
  have inverted := precision.format.msb_xor_intMin a
  rw [← Bool.bne_true, ← sign] at inverted
  rw [neg]
  cases kind : precision.format.isInfinite a with
  | true =>
    have nonzero : precision.format.value precision.format.minusOne ≠ 0 := by
      rw [one]
      decide
    have infinite := precision.format.isInfinite_xor_intMin a
    rw [multiplies.infinite precision mode kind finite nonzero,
      Format.eq_packInfinity_iff.mpr ⟨inverted, infinite.trans kind⟩]
  | false =>
    have bounded := Format.isFinite_of_number number kind
    have product : precision.format.value (a ^^^ BitVec.intMin precision.format.width) =
        precision.format.value a * precision.format.value precision.format.minusOne := by
      rw [Format.value_xor_intMin, one, mul_neg_one]
    have still := precision.format.isFinite_xor_intMin a
    exact (multiplies.finite precision mode bounded finite).eq_of_value
      precision.one_lt_exponentBits (still.trans bounded) product inverted

/-- A number compares less than zero if it has the sign and is not a zero. -/
theorem ComparesNumbers.compare_zero (compares : arithmetic.ComparesNumbers)
    (number : precision.format.isNan a = false) :
    ∃ order, arithmetic.compare precision.format a (precision.format.packZero false) = some order ∧
      (order = .lt ↔ a.msb = true ∧ precision.format.magnitudeOf a ≠ 0) := by
  obtain ⟨counted, zero⟩ := precision.zero
  have ordered : ¬precision.format.Unordered a (precision.format.packZero false) := by
    simp [Format.Unordered, number, counted]
  refine ⟨_, (compares.compare_eq a _).trans (if_neg ordered), ?_⟩
  rw [zero, cmp_eq_lt_iff, Format.signMagnitude]
  cases a.msb <;> simp [Nat.pos_iff_ne_zero]

/-- The absolute value of a number loses the sign, except that of a zero. -/
theorem ComparesNumbers.abs_eq (compares : arithmetic.ComparesNumbers)
    (multiplies : arithmetic.MultipliesCorrectly) (mode : Mode)
    (number : precision.format.isNan a = false) :
    arithmetic.abs precision.format mode a =
      ⟨if a.msb = true ∧ precision.format.magnitudeOf a ≠ 0 then
        a ^^^ BitVec.intMin precision.format.width
      else a, .none⟩ := by
  obtain ⟨order, compared, less⟩ := compares.compare_zero number
  rw [abs, compared]
  cases order with
  | lt => rw [if_pos (less.mp rfl), ← multiplies.neg_eq mode number]
  | eq | gt =>
    rw [if_neg]
    exact fun below => by cases less.mpr below

end Floating.Arithmetic

/-! ### Instructions -/

theorem FloatUnit.execute_abs {unit : FloatUnit} {precision : Precision} (fd : RegNum)
    {fs : RegNum} (compares : unit.arithmetic.ComparesNumbers)
    (multiplies : unit.arithmetic.MultipliesCorrectly)
    (number : precision.format.isNan (unit.operand precision fs) = false) :
    unit.execute (.abs precision fd fs) =
      (unit.setResult precision fd
        (if (unit.operand precision fs).msb = true ∧
            precision.format.magnitudeOf (unit.operand precision fs) ≠ 0 then
          unit.operand precision fs ^^^ BitVec.intMin precision.format.width
        else unit.operand precision fs), none) :=
  (congrArg (unit.finish precision fd) (compares.abs_eq multiplies unit.mode number)).trans
    (unit.finish_exact precision fd _)

namespace Cpu

variable {β : Type} [Bus β]

/-- The absolute value of a number, in each precision and whatever the control register holds. The
destination receives the operand with its sign cleared, except that the negative zero keeps its
sign. Nothing else changes, neither the control register nor the interrupt. -/
theorem abs_clears_sign {cpu : Cpu} (bus : β) {word : Word} {precision : Precision}
    {unit : FloatUnit} {a : BitVec precision.format.width}
    (dispatches : cpu.Dispatches word precision.code 0x05 unit)
    (compares : unit.arithmetic.ComparesNumbers)
    (multiplies : unit.arithmetic.MultipliesCorrectly)
    (operand : unit.operand precision (Encoding.fs word) = a)
    (number : precision.format.isNan a = false) :
    ∃ result, cpu.execute bus word =
        ⟨cpu.withUnit (unit.setResult precision (Encoding.fd word) result), bus, []⟩ ∧
      (unit.setResult precision (Encoding.fd word) result).operand precision (Encoding.fd word) =
        result ∧
      (unit.setResult precision (Encoding.fd word) result).control31 = unit.control31 ∧
      precision.format.exponentField result = precision.format.exponentField a ∧
      precision.format.fractionField result = precision.format.fractionField a ∧
      (result.msb = true ↔ a.msb = true ∧ precision.format.exponentField a = 0 ∧
        precision.format.fractionField a = 0) := by
  subst operand
  refine ⟨_, execute_operate dispatches.decode_abs dispatches.usable dispatches.present
    (unit.execute_abs (Encoding.fd word) compares multiplies number),
    unit.operand_setResult precision _ _, unit.control31_setResult precision _ _, ?_, ?_, ?_⟩
  · split
    · exact Format.exponentField_xor_intMin _ _
    · rfl
  · split
    · exact Format.fractionField_xor_intMin _ _
    · rfl
  · rw [← Format.magnitudeOf_eq_zero_iff]
    split
    next negative =>
      rw [Format.msb_xor_intMin]
      simp [negative]
    next other =>
      -- What has the sign and is left as it is must be a zero.
      constructor
      · intro sign
        exact ⟨sign, not_not.mp fun nonzero => other ⟨sign, nonzero⟩⟩
      · exact And.left

/-- The single number -1.5 becomes 1.5. -/
theorem abs_clears_sign_fraction :
    ((cpuHolding 0xbfc00000).execute noStore 0x46001185).cpu.fpr 3 =
        some 0xdeadbeef3fc00000 ∧
      ((cpuHolding 0xbfc00000).execute noStore 0x46001185).cpu.floatControl = some 0xf83 := by
  have dispatches : (cpuHolding 0xbfc00000).Dispatches 0x46001185 Precision.single.code 0x05
      (unitHolding 0xbfc00000) :=
    ⟨by decide, by decide, by decide, by decide +kernel, rfl⟩
  have operand : (unitHolding 0xbfc00000).operand .single 2 = 0xbfc00000 := by decide
  obtain ⟨result, executed, -, control, exponent, fraction, sign⟩ :=
    abs_clears_sign noStore dispatches Arithmetic.software_comparesNumbers
      Arithmetic.software_multipliesCorrectly operand (by decide)
  have positive : result.msb = false := by
    rw [← Bool.not_eq_true, sign]
    decide
  have value : result = 0x3fc00000 :=
    Format.eq_of_fields (exponent.trans (by decide)) (fraction.trans (by decide)) positive
  rw [executed, value]
  exact ⟨by decide +kernel, by decide +kernel⟩

/-- The arithmetic in software is a library as it is relied on. The negative zero is a number, and
its absolute value has the sign. -/
theorem not_abs_clears_sign :
    (cpuHolding 0x80000000).Dispatches 0x46001185 Precision.single.code 0x05
        (unitHolding 0x80000000) ∧
      (unitHolding 0x80000000).arithmetic.ComparesNumbers ∧
      (unitHolding 0x80000000).arithmetic.MultipliesCorrectly ∧
      Format.single.isNan ((unitHolding 0x80000000).operand .single 2) = false ∧
      ((cpuHolding 0x80000000).execute noStore 0x46001185).cpu.fpr 3 =
        some 0xdeadbeef80000000 := by
  refine ⟨⟨by decide, by decide, by decide, by decide +kernel, rfl⟩,
    Arithmetic.software_comparesNumbers, Arithmetic.software_multipliesCorrectly, by decide, ?_⟩
  decide +kernel

end Cpu

end R3000

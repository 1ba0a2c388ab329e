import R3000.Proofs.ExactOperations
import R3000.Proofs.PatternOrder
import R3000.Proofs.WordConversion

/-!
# Conversions that lose nothing

Double precision has every signed word and every number of single precision. The leading bit of the
significand moves to the leading place of the wider fraction, and the exponent goes down by as many
places, for which the wider exponent field has room: even the subnormal numbers of single precision
are normal ones there. So the conversion to double precision is exact in every direction of
rounding. The conversion back meets a number that the narrow kind has, and is exact as well.

A comparison depends on the numbers that are compared, and not on the format they are in.
-/
namespace R3000

open Floating

namespace Floating

/-! ### Numbers that a format has -/

/-- A format has every number whose significand is short enough and whose exponent leaves room on
both sides. -/
theorem Format.exists_value {format : Format} (negative : Bool) {significand : ℕ} {exponent : ℤ}
    (short : significand < 2 ^ (format.fractionBits + 1))
    (least : format.leastExponent + format.fractionBits ≤ exponent)
    (most : (exponent - format.leastExponent).toNat + 2 ≤ 2 ^ format.exponentBits - 1) :
    ∃ pattern, format.isFinite pattern = true ∧
      format.value pattern = number negative significand exponent ∧ pattern.msb = negative := by
  suffices exists_normalized : ∃ n e, format.Normalized n e ∧
      format.magnitude n e < format.infinityMagnitude ∧
      number negative n e = number negative significand exponent by
    obtain ⟨n, e, normalized, small, same⟩ := exists_normalized
    have fits := Nat.lt_trans small format.infinityMagnitude_lt
    refine ⟨format.pack negative (format.magnitude n e), ?_,
      (normalized.value_pack fits negative).trans same, format.msb_pack negative fits⟩
    rw [isFinite_iff, format.magnitudeOf_pack negative fits]
    exact small
  have room : ((exponent - format.leastExponent).toNat + 2) * 2 ^ format.fractionBits ≤
      format.infinityMagnitude :=
    Nat.mul_le_mul_right _ most
  rw [Nat.add_mul] at room
  have positive := Nat.two_pow_pos format.fractionBits
  by_cases zero : significand = 0
  · subst zero
    refine ⟨0, format.leastExponent, ⟨Int.le_refl _, Nat.two_pow_pos _, .inl rfl⟩, ?_, ?_⟩
    · rw [magnitude_least]
      omega
    · rw [number_zero, number_zero]
  · -- The leading bit is moved to the leading place.
    have top : significand.log2 < format.fractionBits + 1 := (Nat.log2_lt zero).mpr short
    obtain ⟨places, whole⟩ : ∃ places, significand.log2 + places = format.fractionBits :=
      ⟨format.fractionBits - significand.log2, by omega⟩
    have moved := number_shifted negative significand (Int.sub_le_self exponent places.cast_nonneg)
    have up : (exponent - (exponent - places)).toNat = places := by omega
    rw [up] at moved
    obtain ⟨reaches, below⟩ := (Nat.log2_eq_iff zero).mp rfl
    have fits : significand * 2 ^ places < 2 * 2 ^ format.fractionBits := by
      rw [← whole, ← Nat.pow_succ', ← Nat.succ_add, Nat.pow_add]
      exact Nat.mul_lt_mul_of_pos_right below (Nat.two_pow_pos _)
    have leading : 2 ^ format.fractionBits ≤ significand * 2 ^ places := by
      rw [← whole, Nat.pow_add]
      exact Nat.mul_le_mul_right _ reaches
    have lower : (exponent - places - format.leastExponent).toNat * 2 ^ format.fractionBits ≤
        (exponent - format.leastExponent).toNat * 2 ^ format.fractionBits :=
      Nat.mul_le_mul_right _ (by omega)
    refine ⟨significand * 2 ^ places, exponent - places, ⟨by omega, ?_, .inr leading⟩, ?_, moved⟩
    · rwa [Nat.pow_succ']
    · rw [magnitude]
      omega

/-- Double precision has the numbers whose significand has 53 bits, if their exponent is far from
both ends. -/
theorem exists_double (negative : Bool) {significand : ℕ} {exponent : ℤ}
    (short : significand < 2 ^ 53) (above : -149 ≤ exponent) (below : exponent ≤ 128) :
    ∃ wide, Format.double.isFinite wide = true ∧
      Format.double.value wide = number negative significand exponent ∧ wide.msb = negative := by
  have least : Format.double.leastExponent = -1074 := by decide
  have lower : Format.double.leastExponent + (52 : ℕ) ≤ exponent := by omega
  have upper : (exponent - Format.double.leastExponent).toNat + 2 ≤ 2 ^ 11 - 1 := by omega
  exact Format.exists_value negative short lower upper

/-- The range of the numbers of single precision. -/
theorem single_range {a : BitVec Format.single.width} (finite : Format.single.isFinite a = true) :
    Format.single.significand a < 2 ^ 24 ∧ -149 ≤ Format.single.exponent a ∧
      Format.single.exponent a ≤ 128 := by
  have least : Format.single.leastExponent = -149 := by decide
  have normalized := Format.single.normalized a
  have above := normalized.least_le
  have fits : Format.single.significand a < 2 ^ 24 := normalized.fits
  have bounded : (Format.single.exponent a - Format.single.leastExponent).toNat * 2 ^ 23 +
      Format.single.significand a < 255 * 2 ^ 23 := by
    have below := Format.isFinite_iff.mp finite
    rw [← Format.magnitude_pattern] at below
    exact below
  rw [least] at above bounded
  omega

/-- What is converted to double precision and back. -/
inductive Narrow where
  | word
  | single
  deriving DecidableEq

namespace Narrow

/-- The value of the format field that selects a kind. -/
def code : Narrow → BitVec 5
  | .word => 0x14
  | .single => 0x10

/-- The function that converts a number of double precision to a kind. -/
def function : Narrow → BitVec 6
  | .word => 0x24
  | .single => 0x20

/-- The pattern denotes a number, as every word does. -/
def counts : Narrow → Word → Bool
  | .word, _ => true
  | .single, a => !Format.single.isNan a

/-- What a pattern denotes. -/
def point : Narrow → Word → WithBot (WithTop ℚ)
  | .word, a => (((a.toInt : ℚ) : WithTop ℚ) : WithBot (WithTop ℚ))
  | .single, a => Format.single.point a

/-- A pattern of double precision denotes the same number, and has the same sign. -/
structure Wide (kind : Narrow) (a : Word) (wide : BitVec Format.double.width) : Prop where
  number : Format.double.isNan wide = false
  same : Format.double.point wide = kind.point a
  sign : wide.msb = a.msb

variable {kind : Narrow} {a b : Word} {wide other : BitVec Format.double.width}

theorem isNan_of_counts (counts : single.counts a = true) : Format.single.isNan a = false := by
  simpa [Narrow.counts] using counts

/-- Double precision has what is to be converted to it. -/
theorem exists_wide (counts : kind.counts a = true) : ∃ wide, kind.Wide a wide := by
  have denoted {x : ℚ} (point : kind.point a = ((x : WithTop ℚ) : WithBot (WithTop ℚ)))
      (exact : ∃ wide, Format.double.isFinite wide = true ∧ Format.double.value wide = x ∧
        wide.msb = a.msb) : ∃ wide, kind.Wide a wide := by
    obtain ⟨wide, finite, rfl, sign⟩ := exact
    exact ⟨wide, Format.isNan_of_isFinite finite,
      (Format.point_of_isFinite finite).trans point.symm, sign⟩
  cases kind with
  | word =>
    have low := a.le_toInt
    have high := a.toInt_lt
    have short : a.toInt.natAbs < 2 ^ 53 := by omega
    have exact := exists_double (a.toInt < 0) short (by omega : -149 ≤ (0 : ℤ)) (by omega)
    rw [number_intCast, ← BitVec.msb_eq_toInt] at exact
    exact denoted rfl exact
  | single =>
    have number := isNan_of_counts counts
    cases kind : Format.single.isInfinite a with
    | true =>
      have packed : Format.double.packInfinity a.msb = Format.double.packInfinity a.msb := rfl
      obtain ⟨sign, infinite⟩ := Format.eq_packInfinity_iff.mp packed
      refine ⟨_, Format.isNan_of_isInfinite infinite, ?_, sign⟩
      rw [Format.point_of_isInfinite infinite, sign, point, Format.point_of_isInfinite kind]
    | false =>
      have finite := Format.isFinite_of_number number kind
      obtain ⟨fits, above, below⟩ := single_range finite
      exact denoted (Format.point_of_isFinite finite)
        (exists_double a.msb (by omega) above below)

namespace Wide

/-- One pattern of double precision denotes the number with its sign. -/
theorem unique (first : kind.Wide a wide) (second : kind.Wide a other) : wide = other :=
  Format.eq_of_point_eq first.number second.number (first.same.trans second.same.symm)
    (first.sign.trans second.sign.symm)

theorem isFinite_word (same : word.Wide a wide) :
    Format.double.isFinite wide = true ∧ Format.double.value wide = a.toInt :=
  Format.point_eq_coe_iff.mp same.same

/-- A finite number stays finite. -/
theorem value_single (same : single.Wide a wide) (finite : Format.single.isFinite a = true) :
    Format.double.isFinite wide = true ∧
      Format.double.value wide = Format.single.value a :=
  Format.point_eq_coe_iff.mp (same.same.trans (Format.point_of_isFinite finite))

/-- An infinity stays one. -/
theorem isInfinite_single (same : single.Wide a wide)
    (infinite : Format.single.isInfinite a = true) : Format.double.isInfinite wide = true := by
  rw [← Bool.not_eq_false]
  intro bounded
  have finite := Format.isFinite_of_number same.number bounded
  have denotes := same.same.symm.trans (Format.point_of_isFinite finite)
  have against := (Format.point_eq_coe_iff.mp denotes).1
  rw [Format.isFinite_of_isInfinite infinite] at against
  cases against

end Wide

/-! ### Libraries -/

section

variable {arithmetic : Arithmetic}

/-- Widening is exact in every direction of rounding. -/
theorem Wide.ofWord_eq (same : word.Wide a wide) (converts : arithmetic.ConvertsCorrectly)
    (mode : Mode) : arithmetic.ofWord Format.double mode a = ⟨wide, .none⟩ := by
  have low := a.le_toInt
  have high := a.toInt_lt
  obtain ⟨finite, value⟩ := same.isFinite_word
  have sign : wide.msb = decide (a.toInt < 0) := same.sign.trans BitVec.msb_eq_toInt
  exact (converts.integer .double mode (by omega) (by omega)).eq_of_value
    Precision.double.one_lt_exponentBits finite value sign

theorem Wide.widen_eq (same : single.Wide a wide) (converts : arithmetic.ConvertsCorrectly)
    (counts : single.counts a = true) (mode : Mode) :
    arithmetic.convert Format.single Format.double mode a = ⟨wide, .none⟩ := by
  cases kind : Format.single.isInfinite a with
  | true =>
    rw [Format.eq_packInfinity_iff.mpr ⟨same.sign, same.isInfinite_single kind⟩]
    exact converts.infinite .single .double mode kind
  | false =>
    have finite := Format.isFinite_of_number (isNan_of_counts counts) kind
    obtain ⟨bounded, value⟩ := same.value_single finite
    exact (converts.finite .single .double mode finite).eq_of_value
      Precision.double.one_lt_exponentBits bounded value same.sign

/-- So is narrowing what was widened. A word is an integer that is not too large. -/
theorem Wide.toWord_eq (same : word.Wide a wide) (converts : arithmetic.ConvertsToIntegers)
    (mode : Mode) : arithmetic.toWord Format.double mode wide = ⟨a, .none⟩ := by
  obtain ⟨finite, value⟩ := same.isFinite_word
  have fits : -2 ^ 31 ≤ a.toInt ∧ a.toInt < 2 ^ 31 := ⟨a.le_toInt, a.toInt_lt⟩
  have answer := converts.toWord_eq .double mode wide
  rw [value, mode.integer_intCast, if_pos ⟨finite, fits⟩, BitVec.ofInt_toInt] at answer
  exact answer

theorem Wide.narrow_eq (same : single.Wide a wide) (converts : arithmetic.ConvertsCorrectly)
    (counts : single.counts a = true) (mode : Mode) :
    arithmetic.convert Format.double Format.single mode wide = ⟨a, .none⟩ := by
  cases kind : Format.single.isInfinite a with
  | true =>
    rw [Format.eq_packInfinity_iff.mpr ⟨same.sign.symm, kind⟩]
    exact converts.infinite .double .single mode (same.isInfinite_single kind)
  | false =>
    have finite := Format.isFinite_of_number (isNan_of_counts counts) kind
    obtain ⟨bounded, value⟩ := same.value_single finite
    exact (converts.finite .double .single mode bounded).eq_of_value
      Precision.single.one_lt_exponentBits finite value.symm same.sign.symm

/-- Numbers are ordered alike in both formats. -/
theorem Wide.compare_eq (first : single.Wide a wide) (second : single.Wide b other)
    (compares : arithmetic.ComparesNumbers) (counts : single.counts a = true)
    (counted : single.counts b = true) :
    ∃ order, arithmetic.compare Format.single a b = some order ∧
      arithmetic.compare Format.double wide other = some order := by
  have narrow : ¬Format.single.Unordered a b := by
    simp [Format.Unordered, isNan_of_counts counts, isNan_of_counts counted]
  have broad : ¬Format.double.Unordered wide other := by
    simp [Format.Unordered, first.number, second.number]
  refine ⟨_, (compares .single a b).trans (if_neg narrow),
    (compares .double wide other).trans ((if_neg broad).trans ?_)⟩
  rw [first.same, second.same]
  rfl

end

end Narrow

end Floating

/-! ### Instructions -/

namespace FloatUnit

/-- A comparison of numbers sets the condition and asks for no interrupt. -/
theorem compareWith_some (unit : FloatUnit) (predicate : BitVec 4) (order : Ordering) :
    unit.compareWith predicate (some order) =
      ({ unit with control31 :=
          FloatControl.withCondition unit.control31 (holds predicate (some order)) }, none) := by
  have control : compareControl unit.control31 predicate (some order) =
      FloatControl.withCondition unit.control31 (holds predicate (some order)) := by
    simp [FloatControl.compareControl_eq]
  simp only [compareWith, control]
  rfl

end FloatUnit

namespace Cpu

variable {β : Type} [Bus β] {cpu : Cpu} {word : Word} {unit : FloatUnit}

/-- An instruction word sets the condition of the unit, and does nothing else. -/
def Decides (cpu : Cpu) (bus : β) (word : Word) (unit : FloatUnit) (holds : Bool) : Prop :=
  cpu.execute bus word =
    ⟨cpu.withUnit
      { unit with control31 := FloatControl.withCondition unit.control31 holds }, bus, []⟩

namespace Dispatches

variable {kind : Narrow} {a : Word} {wide : BitVec Format.double.width}

theorem widens (dispatches : cpu.Dispatches word kind.code 0x21 unit) (bus : β)
    (converts : unit.arithmetic.ConvertsCorrectly)
    (operand : unit.low (Encoding.fs word) = a) (counts : kind.counts a = true)
    (same : kind.Wide a wide) :
    cpu.StoresExactly bus word unit .double (Encoding.fd word) wide := by
  subst operand
  cases kind with
  | word =>
    apply dispatches.storesExactly bus dispatches.decode_ofWord
    exact congrArg (fun answer => some (Computation.mk .double (Encoding.fd word) answer))
      (same.ofWord_eq converts unit.mode)
  | single =>
    apply dispatches.storesExactly bus (decode_widen dispatches)
    exact congrArg (fun answer => some (Computation.mk .double (Encoding.fd word) answer))
      (same.widen_eq converts counts unit.mode)

theorem narrows (dispatches : cpu.Dispatches word 0x11 kind.function unit) (bus : β)
    (converts : unit.arithmetic.ConvertsCorrectly) (integers : unit.arithmetic.ConvertsToIntegers)
    (operand : unit.operand .double (Encoding.fs word) = wide) (counts : kind.counts a = true)
    (same : kind.Wide a wide) :
    cpu.StoresExactly bus word unit .single (Encoding.fd word) a := by
  subst operand
  cases kind with
  | word =>
    have double : cpu.Dispatches word Precision.double.code 0x24 unit := dispatches
    apply dispatches.storesExactly bus double.decode_toWord
    exact congrArg (fun answer => some (Computation.mk .single (Encoding.fd word) answer))
      (same.toWord_eq integers unit.mode)
  | single =>
    apply dispatches.storesExactly bus (decode_narrow dispatches)
    exact congrArg (fun answer => some (Computation.mk .single (Encoding.fd word) answer))
      (same.narrow_eq converts counts unit.mode)

theorem decides {precision : Precision} {function : BitVec 6}
    (dispatches : cpu.Dispatches word precision.code function unit) (bus : β)
    (comparison : 0x30 ≤ function) {a b : BitVec precision.format.width} {order : Ordering}
    (first : unit.operand precision (Encoding.fs word) = a)
    (second : unit.operand precision (Encoding.ft word) = b)
    (ordered : unit.arithmetic.compare precision.format a b = some order) :
    cpu.Decides bus word unit
      (FloatUnit.holds (function.extractLsb' 0 4) (some order)) := by
  subst first second
  have compared := unit.compareWith_some (function.extractLsb' 0 4) order
  rw [← ordered] at compared
  rw [← ordered]
  exact execute_operate (dispatches.decode_compare comparison) dispatches.usable
    dispatches.present compared

end Dispatches

/-- Every word, and every pattern of single precision that denotes a number, is converted to double
precision without raising anything, in whatever direction results are rounded. The result denotes
the same number. Wherever it is converted back by the same library, that raises nothing either and
gives back the pattern. A comparison of two numbers decides the same in double precision, whatever
the predicate is. -/
theorem widening_loses_nothing (bus : β) {kind : Narrow} {a : Word}
    (dispatches : cpu.Dispatches word kind.code 0x21 unit)
    (converts : unit.arithmetic.ConvertsCorrectly) (integers : unit.arithmetic.ConvertsToIntegers)
    (compares : unit.arithmetic.ComparesNumbers) (operand : unit.low (Encoding.fs word) = a)
    (counts : kind.counts a = true) :
    ∃ wide, kind.Wide a wide ∧
      cpu.StoresExactly bus word unit .double (Encoding.fd word) wide ∧
      (unit.setResult .double (Encoding.fd word) wide).operand .double (Encoding.fd word) = wide ∧
      (∀ (later : Cpu) (memory : β) (back : Word) (held : FloatUnit),
        later.Dispatches back 0x11 kind.function held → held.arithmetic = unit.arithmetic →
        held.operand .double (Encoding.fs back) = wide →
        later.StoresExactly memory back held .single (Encoding.fd back) a) ∧
      (kind = .single → ∀ b other, kind.counts b = true → kind.Wide b other →
        ∀ function : BitVec 6, 0x30 ≤ function → ∃ holds,
          (∀ (early : Cpu) (memory : β) (compare : Word) (held : FloatUnit),
            early.Dispatches compare 0x10 function held → held.arithmetic = unit.arithmetic →
            held.operand .single (Encoding.fs compare) = a →
            held.operand .single (Encoding.ft compare) = b →
            early.Decides memory compare held holds) ∧
          ∀ (late : Cpu) (memory : β) (compare : Word) (held : FloatUnit),
            late.Dispatches compare 0x11 function held → held.arithmetic = unit.arithmetic →
            held.operand .double (Encoding.fs compare) = wide →
            held.operand .double (Encoding.ft compare) = other →
            late.Decides memory compare held holds) := by
  obtain ⟨wide, same⟩ := Narrow.exists_wide counts
  refine ⟨wide, same, dispatches.widens bus converts operand counts same,
    unit.operand_setResult .double _ wide, ?_, ?_⟩
  · intro later memory back held dispatches equal operand
    rw [← equal] at converts integers
    exact dispatches.narrows memory converts integers operand counts same
  · rintro rfl b other counted alike function comparison
    obtain ⟨order, narrow, broad⟩ := same.compare_eq alike compares counts counted
    refine ⟨FloatUnit.holds (function.extractLsb' 0 4) (some order), ?_, ?_⟩
    · intro early memory compare held dispatches equal first second
      have single : early.Dispatches compare Precision.single.code function held := dispatches
      rw [← equal] at narrow
      exact single.decides memory comparison first second narrow
    · intro late memory compare held dispatches equal first second
      have double : late.Dispatches compare Precision.double.code function held := dispatches
      rw [← equal] at broad
      exact double.decides memory comparison first second broad

/-- The smallest subnormal number of single precision becomes a normal one, and is itself again
after that. So is the least word. -/
theorem widening_loses_nothing_least :
    ((cpuHolding 0xcafef00d00000001).execute noStore 0x460011a1).cpu.fpr 3 =
        some 0x36a0000000000000 ∧
      (((cpuHolding 0xcafef00d00000001).execute noStore 0x460011a1).cpu.execute noStore
        0x462030a0).cpu.fpr 1 = some 0xcafef00d00000001 ∧
      ((cpuHolding 0xcafef00d80000000).execute noStore 0x468011a1).cpu.fpr 3 =
        some 0xc1e0000000000000 ∧
      (((cpuHolding 0xcafef00d80000000).execute noStore 0x468011a1).cpu.execute noStore
        0x462030a4).cpu.fpr 1 = some 0xcafef00d80000000 := by
  have returns {kind : Narrow} {operand : BitVec 64} {there back a : Word} {wide : BitVec 64}
      (first : (cpuHolding operand).Dispatches there kind.code 0x21 (unitHolding operand))
      (second : (cpuUsing.withUnit ((unitHolding operand).setResult .double 6 wide)).Dispatches back
        0x11 kind.function ((unitHolding operand).setResult .double 6 wide))
      (held : (unitHolding operand).low (Encoding.fs there) = a) (target : Encoding.fd there = 6)
      (source : Encoding.fs back = 6) (destination : Encoding.fd back = 2)
      (counts : kind.counts a = true) (same : kind.Wide a wide) :
      ((cpuHolding operand).execute noStore there).cpu =
          cpuUsing.withUnit ((unitHolding operand).setResult .double 6 wide) ∧
        (((cpuHolding operand).execute noStore there).cpu.execute noStore back).cpu =
          cpuUsing.withUnit
            (((unitHolding operand).setResult .double 6 wide).setResult .single 2 a) := by
    obtain ⟨other, alike, stores, result, restores, -⟩ :=
      widening_loses_nothing noStore first Arithmetic.software_convertsCorrectly
        Arithmetic.software_convertsToIntegers Arithmetic.software_comparesNumbers held counts
    cases alike.unique same
    rw [target] at stores result
    have again : ((unitHolding operand).setResult .double 6 wide).operand .double
        (Encoding.fs back) = wide := by
      rw [source]
      exact result
    have restored := restores _ noStore back _ second rfl again
    rw [destination] at restored
    have widened : ((cpuHolding operand).execute noStore there).cpu =
        cpuUsing.withUnit ((unitHolding operand).setResult .double 6 wide) :=
      congrArg Outcome.cpu stores.executed
    rw [widened]
    exact ⟨rfl, congrArg Outcome.cpu restored.executed⟩
  have usable := unitUsable_withUnit
  have subnormal : Narrow.single.Wide 0x00000001 0x36a0000000000000 :=
    ⟨by decide, by decide +kernel, by decide⟩
  have least : Narrow.word.Wide 0x80000000 0xc1e0000000000000 :=
    ⟨by decide, by decide +kernel, by decide⟩
  obtain ⟨widened, restored⟩ := @returns .single 0xcafef00d00000001 0x460011a1 0x462030a0 _ _
    ⟨by decide, by decide, by decide, usable _, rfl⟩
    ⟨by decide, by decide, by decide, usable _, rfl⟩ (by decide) (by decide) (by decide) (by decide)
    (by decide) subnormal
  obtain ⟨converted, returned⟩ := @returns .word 0xcafef00d80000000 0x468011a1 0x462030a4 _ _
    ⟨by decide, by decide, by decide, usable _, rfl⟩
    ⟨by decide, by decide, by decide, usable _, rfl⟩ (by decide) (by decide) (by decide) (by decide)
    (by decide) least
  rw [restored, returned, widened, converted]
  refine ⟨?_, ?_, ?_, ?_⟩
  all_goals decide +kernel

end Cpu

end R3000

import R3000.Floating.Software
import R3000.Proofs.CorrectRounding

/-!
# Arithmetic in software is correctly rounded

The arithmetic in software rounds a ratio of natural numbers in units of the last place. Its
quotient and remainder decide as the floor and the part above it do, so the ratio is rounded as a
number with a sign is. The significand that comes out fits in the format, or is one too large for
it: then the number is the first one of the next exponent, which is where adding a significand to an
exponent field puts it.

So the arithmetic in software is a library as it is relied on.
-/
namespace R3000

open Floating

namespace Floating

/-! ### Ratios -/

theorem roundsAway_zero (mode : Mode) (negative : Bool) (quotient : ℕ) {denominator : ℕ}
    (positive : 0 < denominator) : roundsAway mode negative quotient 0 denominator = false := by
  cases mode with
  | nearestEven => simp [roundsAway]; omega
  | towardZero => rfl
  | towardPositive => rfl
  | towardNegative => rfl

/-- A number that lies a part of one above an integer. -/
theorem Mode.integer_add (mode : Mode) (below : ℤ) {part : ℚ} (least : 0 < part) (less : part < 1) :
    mode.integer (below + part) =
      match mode with
      | .nearestEven =>
        if part < 1 / 2 then below
        else if 1 / 2 < part then below + 1
        else if below % 2 = 0 then below
        else below + 1
      | .towardZero => if 0 ≤ below then below else below + 1
      | .towardPositive => below + 1
      | .towardNegative => below := by
  have floor : ⌊(below + part : ℚ)⌋ = below :=
    Int.floor_eq_iff.mpr ⟨by linarith, by linarith⟩
  have ceil : ⌈(below + part : ℚ)⌉ = below + 1 := by
    refine Int.ceil_eq_iff.mpr ⟨?_, ?_⟩ <;> push_cast <;> linarith
  have rest : (below + part : ℚ) - below = part := by ring
  have sign : (0 : ℚ) ≤ below + part ↔ 0 ≤ below := by
    rw [← floor, Int.floor_nonneg, floor]
  cases mode with
  | nearestEven => simp only [integer, floor, rest]
  | towardZero => simp only [integer, floor, ceil, sign]
  | towardPositive => exact ceil
  | towardNegative => exact floor

section

variable {numerator denominator : ℕ}

/-- Twice a remainder is compared with the denominator as its part of one is with a half. -/
theorem part_lt_half_iff (positive : 0 < denominator) (remainder : ℕ) :
    ((remainder : ℚ) / denominator < 1 / 2 ↔ 2 * remainder < denominator) ∧
      (1 / 2 < (remainder : ℚ) / denominator ↔ denominator < 2 * remainder) := by
  constructor
  · rw [div_lt_div_iff₀ (by positivity) (by positivity), one_mul, mul_comm]
    exact_mod_cast Iff.rfl
  · rw [div_lt_div_iff₀ (by positivity) (by positivity), one_mul, mul_comm]
    exact_mod_cast Iff.rfl

section

variable {quotient remainder : ℕ} (rest : remainder ≠ 0) (remains : remainder < denominator)

include rest remains

theorem part_bounds : 0 < (remainder : ℚ) / denominator ∧ (remainder : ℚ) / denominator < 1 := by
  have positive : 0 < denominator := by omega
  refine ⟨by positivity, ?_⟩
  rw [div_lt_one (by positivity)]
  exact_mod_cast remains

/-- A positive ratio lies above its quotient. -/
theorem Mode.integer_positive (mode : Mode) :
    mode.integer (((signed false (quotient * denominator + remainder) : ℤ) : ℚ) / denominator) =
      signed false
        (if roundsAway mode false quotient remainder denominator then quotient + 1
        else quotient) := by
  have nonzero : (denominator : ℚ) ≠ 0 := by
    have positive : 0 < denominator := by omega
    positivity
  have value : ((signed false (quotient * denominator + remainder) : ℤ) : ℚ) / denominator =
      ((quotient : ℤ) : ℚ) + (remainder : ℚ) / denominator := by
    rw [signed_false]
    push_cast
    field_simp
  obtain ⟨least, less⟩ := part_bounds rest remains
  obtain ⟨small, large⟩ := part_lt_half_iff (by omega : 0 < denominator) remainder
  rw [value, integer_add _ _ least less]
  cases mode with
  | nearestEven =>
    simp only [roundsAway, small, large, Bool.or_eq_true, decide_eq_true_eq, Bool.and_eq_true,
      beq_iff_eq]
    split_ifs <;> simp only [signed_false] <;> omega
  | towardZero => simp [roundsAway]
  | towardPositive => simp [roundsAway, rest]
  | towardNegative => simp [roundsAway]

/-- A negative ratio lies below the negated quotient, at a distance from the integer below of what
the remainder lacks. -/
theorem Mode.integer_negative (mode : Mode) :
    mode.integer (((signed true (quotient * denominator + remainder) : ℤ) : ℚ) / denominator) =
      signed true
        (if roundsAway mode true quotient remainder denominator then quotient + 1
        else quotient) := by
  have nonzero : (denominator : ℚ) ≠ 0 := by
    have positive : 0 < denominator := by omega
    positivity
  have value : ((signed true (quotient * denominator + remainder) : ℤ) : ℚ) / denominator =
      ((-(quotient : ℤ) - 1 : ℤ) : ℚ) + (1 - (remainder : ℚ) / denominator) := by
    rw [signed_true]
    push_cast
    field_simp
    ring
  obtain ⟨least, less⟩ := part_bounds rest remains
  obtain ⟨small, large⟩ := part_lt_half_iff (by omega : 0 < denominator) remainder
  rw [value, integer_add _ _ (by linarith) (by linarith)]
  cases mode with
  | nearestEven =>
    have near : 1 - (remainder : ℚ) / denominator < 1 / 2 ↔ denominator < 2 * remainder := by
      rw [← large]
      constructor <;> intro <;> linarith
    have far : 1 / 2 < 1 - (remainder : ℚ) / denominator ↔ 2 * remainder < denominator := by
      rw [← small]
      constructor <;> intro <;> linarith
    simp only [roundsAway, near, far, Bool.or_eq_true, decide_eq_true_eq, Bool.and_eq_true,
      beq_iff_eq]
    -- The integer below is even if the quotient is odd.
    split_ifs <;> simp only [signed_true] <;> omega
  | towardZero => simp [roundsAway]; omega
  | towardPositive => simp [roundsAway]
  | towardNegative => simp [roundsAway, rest]; omega

end

/-- The integer to which a ratio with a sign is rounded. -/
theorem Mode.integer_ratio (mode : Mode) (negative : Bool) (positive : 0 < denominator) :
    mode.integer (((signed negative numerator : ℤ) : ℚ) / denominator) =
      signed negative (roundRatio mode negative numerator denominator) := by
  have whole := Nat.div_add_mod' numerator denominator
  have remains := Nat.mod_lt numerator positive
  rw [roundRatio]
  generalize numerator / denominator = quotient at whole ⊢
  generalize numerator % denominator = remainder at whole remains ⊢
  subst whole
  by_cases exact : remainder = 0
  · have value : ((signed negative (quotient * denominator + remainder) : ℤ) : ℚ) / denominator =
        (signed negative quotient : ℤ) := by
      subst exact
      cases negative <;> simp only [signed_true, signed_false] <;> push_cast <;> field_simp <;> ring
    rw [value, integer_intCast, exact, roundsAway_zero _ _ _ positive]
    rfl
  · cases negative with
    | false => exact mode.integer_positive exact remains
    | true => exact mode.integer_negative exact remains

/-- A ratio is an integer if nothing remains. -/
theorem isInt_ratio (negative : Bool) (positive : 0 < denominator) :
    (((signed negative numerator : ℤ) : ℚ) / denominator).isInt =
      (numerator % denominator == 0) := by
  have nonzero : (denominator : ℤ) ≠ 0 := by omega
  rw [Bool.eq_iff_iff, Rat.isInt, beq_iff_eq, beq_iff_eq, ← Int.cast_natCast denominator,
    Rat.den_div_intCast_eq_one_iff _ _ nonzero, ← Nat.dvd_iff_mod_eq_zero]
  cases negative with
  | false => exact Int.natCast_dvd_natCast
  | true => exact Int.dvd_neg.trans Int.natCast_dvd_natCast

theorem roundRatio_le (mode : Mode) (negative : Bool) (positive : 0 < denominator) {bound : ℕ}
    (below : numerator < bound * denominator) :
    roundRatio mode negative numerator denominator ≤ bound := by
  have quotient : numerator / denominator < bound := (Nat.div_lt_iff_lt_mul positive).mpr below
  rw [roundRatio]
  split <;> omega

theorem le_roundRatio (mode : Mode) (negative : Bool) (positive : 0 < denominator) {bound : ℕ}
    (reaches : bound * denominator ≤ numerator) :
    bound ≤ roundRatio mode negative numerator denominator := by
  have quotient : bound ≤ numerator / denominator := (Nat.le_div_iff_mul_le positive).mpr reaches
  rw [roundRatio]
  split <;> omega

end

/-! ### The last place -/

variable {significand : ℕ} {exponent : ℤ}

theorem number_zero (negative : Bool) (exponent : ℤ) : number negative 0 exponent = 0 := by
  cases negative <;> simp [number]

theorem number_mul (a b : Bool) (m n : ℕ) (d e : ℤ) :
    number a m d * number b n e = number (a != b) (m * n) (d + e) := by
  rw [number, number, number, zpow_add₀ two_ne_zero]
  cases a <;> cases b <;> simp <;> ring

theorem number_intCast (value : ℤ) : number (value < 0) value.natAbs 0 = value := by
  have sign : signed (value < 0) value.natAbs = value := by
    simp only [signed, decide_eq_true_eq]
    split <;> omega
  rw [number, sign, zpow_zero, mul_one]

/-- A number in units of a place. -/
theorem inUnits_ofScaled (significand : ℕ) (exponent place : ℤ) :
    (Exact.ofScaled significand exponent).inUnits place =
      (significand * 2 ^ (exponent - place).toNat, 2 ^ (place - exponent).toNat) := by
  simp only [Exact.inUnits, Exact.ofScaled, Int.neg_sub, Nat.one_mul]

theorem number_div (negative : Bool) (significand : ℕ) (exponent place : ℤ) :
    number negative significand exponent / 2 ^ place =
      ((signed negative (significand * 2 ^ (exponent - place).toNat) : ℤ) : ℚ) /
        (2 ^ (place - exponent).toNat : ℕ) := by
  have scale : (2 : ℚ) ^ place ≠ 0 := zpow_ne_zero _ two_ne_zero
  rcases Int.le_total place exponent with below | above
  · have none : (place - exponent).toNat = 0 := by omega
    rw [← number_shifted negative significand below, number, mul_div_cancel_right₀ _ scale, none,
      Nat.pow_zero, Nat.cast_one, div_one]
  · obtain ⟨places, rfl⟩ := Int.le.dest above
    have none : (exponent - (exponent + places)).toNat = 0 := by omega
    have lowered : (exponent + places - exponent).toNat = places := by omega
    have unit : (2 : ℚ) ^ exponent ≠ 0 := zpow_ne_zero _ two_ne_zero
    rw [none, lowered, Nat.pow_zero, Nat.mul_one, number, zpow_add₀ two_ne_zero, zpow_natCast,
      mul_comm ((2 : ℚ) ^ exponent), mul_div_mul_right _ _ unit]
    push_cast
    rfl

/-- The leading bit of a number lies at the sum of its exponent and the place in its significand. -/
theorem leadingExponent_ofScaled (nonzero : significand ≠ 0) (exponent : ℤ) :
    (Exact.ofScaled significand exponent).leadingExponent = exponent + significand.log2 := by
  have reaches : ¬significand < 2 ^ significand.log2 :=
    Nat.not_lt.mpr (Nat.log2_self_le nonzero)
  have one : Nat.log2 1 = 0 := by decide
  simp [Exact.leadingExponent, Exact.ofScaled, Exact.inUnits, one, reaches]

theorem log_number (negative : Bool) (nonzero : significand ≠ 0) (exponent : ℤ) :
    Int.log 2 |number negative significand exponent| = exponent + significand.log2 := by
  have scale : (0 : ℚ) < 2 ^ exponent := zpow_pos two_pos _
  obtain ⟨least, most⟩ := (Nat.log2_eq_iff nonzero).mp rfl
  have positive : 0 < (significand : ℚ) * 2 ^ exponent := by positivity
  rw [abs_number]
  apply Int.le_antisymm
  · rw [← Int.lt_add_one_iff, ← Int.lt_zpow_iff_log_lt one_lt_two positive, Int.add_assoc,
      Nat.cast_ofNat, zpow_add₀ two_ne_zero, mul_comm]
    exact mul_lt_mul_of_pos_left (by exact_mod_cast most) scale
  · rw [← Int.zpow_le_iff_le_log one_lt_two positive, Nat.cast_ofNat, zpow_add₀ two_ne_zero,
      mul_comm]
    exact mul_le_mul_of_nonneg_right (by exact_mod_cast least) (le_of_lt scale)

namespace Format

variable {format : Format}

theorem lastPlace_ofScaled (negative : Bool) (nonzero : significand ≠ 0) (exponent : ℤ) :
    format.lastPlace (.ofScaled significand exponent) =
      format.quantumExponent (number negative significand exponent) := by
  rw [lastPlace, quantumExponent, leadingExponent_ofScaled nonzero, log_number negative nonzero]

/-! ### Rounded numbers -/

/-- A significand that is rounded in the last place fits, or is the first that does not. It has the
leading bit unless the last place is the least. -/
theorem roundRatio_bounds (mode : Mode) (negative : Bool) (nonzero : significand ≠ 0) {place : ℤ}
    (last : place = max format.leastExponent (exponent + significand.log2 - format.fractionBits)) :
    roundRatio mode negative (significand * 2 ^ (exponent - place).toNat)
        (2 ^ (place - exponent).toNat) ≤ 2 ^ (format.fractionBits + 1) ∧
      (place = format.leastExponent ∨
        2 ^ format.fractionBits ≤
          roundRatio mode negative (significand * 2 ^ (exponent - place).toNat)
            (2 ^ (place - exponent).toNat)) := by
  have positive := Nat.two_pow_pos (place - exponent).toNat
  have raised := Nat.two_pow_pos (exponent - place).toNat
  obtain ⟨least, most⟩ := (Nat.log2_eq_iff nonzero).mp rfl
  -- The leading bit of the significand is at most as many places above the last as a fraction has,
  -- and exactly as many unless the last place is the least.
  constructor
  · apply roundRatio_le mode negative positive
    calc significand * 2 ^ (exponent - place).toNat
        < 2 ^ (significand.log2 + 1) * 2 ^ (exponent - place).toNat :=
          Nat.mul_lt_mul_of_pos_right most raised
      _ = 2 ^ (significand.log2 + 1 + (exponent - place).toNat) := (Nat.pow_add _ _ _).symm
      _ ≤ 2 ^ (format.fractionBits + 1 + (place - exponent).toNat) :=
          Nat.pow_le_pow_right Nat.two_pos (by omega)
      _ = 2 ^ (format.fractionBits + 1) * 2 ^ (place - exponent).toNat := Nat.pow_add _ _ _
  · by_cases lowest : place = format.leastExponent
    · exact .inl lowest
    · refine .inr (le_roundRatio mode negative positive ?_)
      have places : format.fractionBits + (place - exponent).toNat =
          significand.log2 + (exponent - place).toNat := by
        omega
      calc 2 ^ format.fractionBits * 2 ^ (place - exponent).toNat
          = 2 ^ significand.log2 * 2 ^ (exponent - place).toNat := by
            rw [← Nat.pow_add, places, Nat.pow_add]
        _ ≤ significand * 2 ^ (exponent - place).toNat := Nat.mul_le_mul_right _ least

/-- If the significand is one too large, the number is the first one of the next exponent. -/
theorem exists_normalized {place : ℤ} (negative : Bool) (least : format.leastExponent ≤ place)
    (fits : significand ≤ 2 ^ (format.fractionBits + 1))
    (leading : place = format.leastExponent ∨ 2 ^ format.fractionBits ≤ significand) :
    ∃ m e, format.Normalized m e ∧ format.magnitude m e = format.magnitude significand place ∧
      number negative m e = number negative significand place := by
  rcases Nat.lt_or_eq_of_le fits with below | rfl
  · exact ⟨significand, place, ⟨least, below, leading⟩, rfl, rfl⟩
  · have positive := Nat.two_pow_pos format.fractionBits
    have one : (place + 1 - place).toNat = 1 := by omega
    have shifted :=
      number_shifted negative (2 ^ format.fractionBits) (Int.le_add_one (le_refl place))
    rw [one, Nat.pow_one, ← Nat.pow_succ] at shifted
    refine ⟨2 ^ format.fractionBits, place + 1, ⟨by omega, ?_, .inr (Nat.le_refl _)⟩, ?_,
      shifted.symm⟩
    · rw [Nat.pow_succ]
      omega
    · have next : (place + 1 - format.leastExponent).toNat =
          (place - format.leastExponent).toNat + 1 := by
        omega
      rw [magnitude, magnitude, next, Nat.succ_mul, Nat.pow_succ]
      omega

/-- A number that is not too large lies below infinity. -/
theorem Normalized.magnitude_lt (exponents : 1 < format.exponentBits) {m : ℕ} {e : ℤ}
    (normalized : format.Normalized m e) (small : (m : ℚ) * 2 ^ e < 2 ^ (format.bias + 1)) :
    format.magnitude m e < format.infinityMagnitude := by
  by_contra reaches
  rw [Nat.not_lt] at reaches
  obtain ⟨range, normal⟩ := format.two_pow_exponentBits exponents
  have fits := normalized.fits
  rw [Nat.pow_succ, Nat.mul_comm] at fits
  -- The exponent is at least that of the numbers below infinity, so the leading bit is there.
  have high : 2 * format.bias ≤ (e - format.leastExponent).toNat := by
    have less : (2 * format.bias + 1) * 2 ^ format.fractionBits <
        ((e - format.leastExponent).toNat + 2) * 2 ^ format.fractionBits := by
      have full : format.infinityMagnitude =
          (2 * format.bias + 1) * 2 ^ format.fractionBits := by
        rw [infinityMagnitude, range]
        rfl
      rw [← full, Nat.add_mul]
      rw [magnitude] at reaches
      omega
    have fields := Nat.lt_of_mul_lt_mul_right less
    omega
  have leading : 2 ^ format.fractionBits ≤ m := normalized.leading.resolve_left (by omega)
  have exponent : ((format.bias + 1 : ℕ) : ℤ) ≤ format.fractionBits + e := by
    rw [leastExponent] at high
    omega
  have scale : (0 : ℚ) < 2 ^ e := zpow_pos two_pos _
  refine absurd small (not_lt.mpr ?_)
  calc (2 : ℚ) ^ (format.bias + 1)
      = 2 ^ ((format.bias + 1 : ℕ) : ℤ) := (zpow_natCast _ _).symm
    _ ≤ 2 ^ (format.fractionBits + e) := zpow_le_zpow_right₀ one_le_two exponent
    _ = 2 ^ format.fractionBits * 2 ^ e := by rw [zpow_add₀ two_ne_zero, zpow_natCast]
    _ ≤ m * 2 ^ e := mul_le_mul_of_nonneg_right (by exact_mod_cast leading) (le_of_lt scale)

/-- The pattern of the rounded result answers for it. -/
theorem Normalized.roundsTo {m : ℕ} {e : ℤ} (normalized : format.Normalized m e)
    (small : format.magnitude m e < format.infinityMagnitude) {mode : Mode} {negative : Bool}
    {exact : ℚ} (same : number negative m e = format.rounded mode exact) {inexact underflow : Bool}
    (changed : inexact = true ↔ format.rounded mode exact ≠ exact)
    (within : underflow = true → inexact = true) :
    format.RoundsTo mode negative exact
      ⟨format.pack negative (format.magnitude m e), { inexact, underflow }⟩ := by
  have fits := Nat.lt_trans small format.infinityMagnitude_lt
  exact {
    finite := by
      rw [isFinite_iff, format.magnitudeOf_pack negative fits]
      exact small
    value := (normalized.value_pack fits negative).trans same
    sign := format.msb_pack negative fits
    inexact := changed
    underflow := within
    overflow := rfl
    divByZero := rfl
    invalid := rfl }

/-- A number is rounded to the ratio of its units of the last place. -/
theorem rounded_number (mode : Mode) {negative : Bool} {place : ℤ}
    (last : format.quantumExponent (number negative significand exponent) = place) :
    format.rounded mode (number negative significand exponent) =
        number negative
          (roundRatio mode negative (significand * 2 ^ (exponent - place).toNat)
            (2 ^ (place - exponent).toNat)) place ∧
      (format.rounded mode (number negative significand exponent) =
          number negative significand exponent ↔
        significand * 2 ^ (exponent - place).toNat % 2 ^ (place - exponent).toNat = 0) := by
  have positive := Nat.two_pow_pos (place - exponent).toNat
  constructor
  · rw [rounded, last, number_div, mode.integer_ratio negative positive]
    rfl
  · rw [rounded_eq_iff, last, number_div, isInt_ratio negative positive, beq_iff_eq]

/-- A zero stays one, with its sign. -/
theorem round_zero (exponents : 1 < format.exponentBits) (mode : Mode) (negative : Bool)
    (exponent : ℤ) :
    format.RoundsTo mode negative 0 (format.round mode negative (.ofScaled 0 exponent)) := by
  have least : format.Normalized 0 format.leastExponent :=
    ⟨Int.le_refl _, Nat.two_pow_pos _, .inl rfl⟩
  have below : format.magnitude 0 format.leastExponent < format.infinityMagnitude := by
    apply least.magnitude_lt exponents
    rw [Nat.cast_zero, zero_mul]
    positivity
  have origin : format.rounded mode 0 = 0 := by
    rw [rounded_eq_iff, zero_div]
    rfl
  have answer : format.round mode negative (.ofScaled 0 exponent) =
      ⟨format.pack negative (format.magnitude 0 format.leastExponent), .none⟩ := by
    rw [magnitude_least]
    rfl
  rw [answer]
  exact least.roundsTo below ((number_zero _ _).trans origin.symm) (by simp [origin]) (by simp)

/-- A number is rounded correctly. -/
theorem round_correct (exponents : 1 < format.exponentBits) (mode : Mode) (negative : Bool)
    (significand : ℕ) (exponent : ℤ) :
    format.CorrectlyRounded mode negative (number negative significand exponent)
      (format.round mode negative (.ofScaled significand exponent)) := by
  intro small
  by_cases zero : significand = 0
  · rw [zero, number_zero]
    exact round_zero exponents mode negative exponent
  · have last := format.lastPlace_ofScaled negative zero exponent
    generalize named : format.quantumExponent (number negative significand exponent) = place at last
    obtain ⟨value, unchanged⟩ := rounded_number mode named
    rw [quantumExponent, log_number negative zero] at named
    obtain ⟨fits, leading⟩ := roundRatio_bounds mode negative zero named.symm
    obtain ⟨m, e, normalized, magnitude, same⟩ :=
      exists_normalized negative (named ▸ le_max_left _ _) fits leading
    have below : format.magnitude m e < format.infinityMagnitude := by
      apply normalized.magnitude_lt exponents
      rw [← abs_number negative, same, ← value]
      exact small
    have numerator : (Exact.ofScaled significand exponent).numerator ≠ 0 := zero
    simp only [round, if_neg numerator, last, inUnits_ofScaled, ← magnitude,
      if_neg (Nat.not_le.mpr below)]
    exact normalized.roundsTo below (same.trans value.symm)
      (by rw [bne_iff_ne, ne_eq, ne_eq, unchanged])
      (fun underflows => (Bool.and_eq_true_iff.mp underflows).1)

end Format

/-! ### Operands -/

namespace Format

variable {format : Format} {pattern : BitVec format.width}

theorem decode_of_isFinite (finite : format.isFinite pattern = true) :
    format.decode pattern =
      .finite pattern.msb (format.significand pattern) (format.exponent pattern) := by
  have full : format.magnitudeOf pattern / 2 ^ format.fractionBits ≠
      2 ^ format.exponentBits - 1 := by
    rw [← toNat_exponentField, ← BitVec.toNat_allOnes, ne_eq, BitVec.toNat_inj]
    exact bne_iff_ne.mp finite
  simp only [decode, if_neg full, significand, exponent, exponentField_eq_zero_iff,
    toNat_fractionField, toNat_exponentField]
  split
  next subnormal => simp [subnormal, leastExponent]
  next normal =>
    have place : format.leastExponent +
        ((format.magnitudeOf pattern / 2 ^ format.fractionBits - 1 : ℕ) : ℤ) =
        ((max 1 (format.magnitudeOf pattern / 2 ^ format.fractionBits) : ℕ) : ℤ) -
          format.bias - format.fractionBits := by
      simp only [leastExponent]
      omega
    rw [place]

theorem decode_of_isInfinite (infinite : format.isInfinite pattern = true) :
    format.decode pattern = .infinity pattern.msb := by
  have zero : (0 : BitVec format.fractionBits).toNat = 0 := by simp
  rw [isInfinite, Bool.and_eq_true, beq_iff_eq, beq_iff_eq, ← BitVec.toNat_inj, ← BitVec.toNat_inj,
    toNat_exponentField, toNat_fractionField, zero, BitVec.toNat_allOnes] at infinite
  simp only [decode, if_pos infinite.1, if_pos infinite.2]

theorem decode_of_isNan (odd : format.isNan pattern = true) :
    ∃ payload, format.decode pattern = .nan pattern.msb payload := by
  have zero : (0 : BitVec format.fractionBits).toNat = 0 := by simp
  rw [isNan, Bool.and_eq_true, beq_iff_eq, bne_iff_ne, ne_eq, ← BitVec.toNat_inj,
    ← BitVec.toNat_inj, toNat_exponentField, toNat_fractionField, zero, BitVec.toNat_allOnes] at odd
  exact ⟨_, by simp only [decode, if_pos odd.1, if_neg odd.2]; rfl⟩

variable (format) (pattern)

theorem isNan_decode : (format.decode pattern).isNan = format.isNan pattern := by
  cases odd : format.isNan pattern with
  | true =>
    obtain ⟨payload, denoted⟩ := decode_of_isNan odd
    rw [denoted]
    rfl
  | false =>
    cases infinite : format.isInfinite pattern with
    | true =>
      rw [decode_of_isInfinite infinite]
      rfl
    | false =>
      rw [decode_of_isFinite (isFinite_of_number odd infinite)]
      rfl

theorem negative_decode : (format.decode pattern).negative = pattern.msb := by
  simp only [decode]
  split
  · split <;> rfl
  · split <;> rfl

end Format

/-! ### Order -/

/-- Finite data are ordered as numbers. -/
theorem Datum.compare_finite (a b : Bool) (m n : ℕ) (d e : ℤ) :
    (Datum.finite a m d).compare (.finite b n e) =
      some (cmp (number a m d) (number b n e)) := by
  rw [cmp_number, cmp_eq_compare]
  rfl

theorem Datum.compare_nan_right (first : Datum) (negative : Bool) (payload : ℕ) :
    first.compare (.nan negative payload) = none := by
  cases first <;> rfl

/-- Patterns are compared by what they denote. -/
theorem Format.compare_point {format : Format} (a b : BitVec format.width) :
    format.compare a b =
      if format.Unordered a b then none
      else some (cmp (format.point a) (format.point b)) := by
  rw [Format.compare]
  by_cases odd : format.Unordered a b
  · rw [if_pos odd]
    rcases odd with first | second
    · obtain ⟨payload, denoted⟩ := decode_of_isNan first
      rw [denoted]
      rfl
    · obtain ⟨payload, denoted⟩ := decode_of_isNan second
      rw [denoted, Datum.compare_nan_right]
  · obtain ⟨first, second⟩ := not_or.mp odd
    rw [if_neg odd]
    -- Finite data are numbers, and an infinity lies beyond all of them.
    cases kind : format.isInfinite a with
    | false =>
      have finite := isFinite_of_number (Bool.eq_false_of_not_eq_true first) kind
      rw [decode_of_isFinite finite, point_of_isFinite finite]
      cases other : format.isInfinite b with
      | false =>
        have bounded := isFinite_of_number (Bool.eq_false_of_not_eq_true second) other
        rw [decode_of_isFinite bounded, point_of_isFinite bounded, Datum.compare_finite,
          WithBot.coe_strictMono.cmp_map_eq, WithTop.coe_strictMono.cmp_map_eq]
        rfl
      | true =>
        rw [decode_of_isInfinite other, point_of_isInfinite other]
        cases b.msb <;> simp [Datum.compare, cmp, cmpUsing, coe_coe_lt_top]
    | true =>
      rw [decode_of_isInfinite kind, point_of_isInfinite kind]
      cases other : format.isInfinite b with
      | false =>
        have bounded := isFinite_of_number (Bool.eq_false_of_not_eq_true second) other
        rw [decode_of_isFinite bounded, point_of_isFinite bounded]
        cases a.msb <;> simp [Datum.compare, cmp, cmpUsing, coe_coe_lt_top]
      | true =>
        rw [decode_of_isInfinite other, point_of_isInfinite other]
        cases a.msb <;> cases b.msb <;> simp [Datum.compare, cmp, cmpUsing]

/-! ### Integers -/

/-- A number is converted to the integer to which it is rounded, if a word holds that. -/
theorem Datum.toInteger_finite (mode : Mode) (width : ℕ) (negative : Bool)
    (significand : ℕ) (exponent : ℤ) :
    (Datum.finite negative significand exponent).toInteger mode width =
      if -2 ^ (width - 1) ≤ mode.integer (number negative significand exponent) ∧
          mode.integer (number negative significand exponent) < 2 ^ (width - 1) then
        ⟨mode.integer (number negative significand exponent),
          { inexact := !(number negative significand exponent).isInt }⟩
      else ⟨signed negative (wordLimit width negative), { invalid := true }⟩ := by
  have positive := Nat.two_pow_pos (0 - exponent).toNat
  have ratio := number_div negative significand exponent 0
  rw [zpow_zero, div_one] at ratio
  rw [ratio, mode.integer_ratio negative positive, isInt_ratio negative positive]
  simp only [toInteger, inUnits_ofScaled]
  generalize roundRatio mode negative _ _ = rounded
  have fits : -2 ^ (width - 1) ≤ signed negative rounded ∧
      signed negative rounded < 2 ^ (width - 1) ↔ ¬wordLimit width negative < rounded := by
    have power : ((2 ^ (width - 1) : ℕ) : ℤ) = 2 ^ (width - 1) := by push_cast; rfl
    have one := Nat.two_pow_pos (width - 1)
    cases negative <;> simp only [signed_true, signed_false, wordLimit] <;> simp <;> omega
  rw [if_congr fits rfl rfl, ite_not]
  rfl

end Floating

/-! ### The library -/

namespace Floating.Arithmetic

theorem software_comparesNumbers : software.ComparesNumbers :=
  fun _ a b => Format.compare_point a b

theorem software_multipliesCorrectly : software.MultipliesCorrectly where
  finite := by
    intro precision mode a b finite other
    have product : precision.format.value a * precision.format.value b =
        number (a.msb != b.msb) (precision.format.significand a * precision.format.significand b)
          (precision.format.exponent a + precision.format.exponent b) :=
      number_mul _ _ _ _ _ _
    simp only [software, Format.mul, Format.decode_of_isFinite finite,
      Format.decode_of_isFinite other, product]
    exact Format.round_correct precision.one_lt_exponentBits mode _ _ _
  infinite := by
    intro precision mode a b infinite other nonzero
    have present : precision.format.significand b ≠ 0 := by
      intro zero
      rw [Format.value, zero, number_zero] at nonzero
      exact nonzero rfl
    simp only [software, Format.mul, Format.decode_of_isInfinite infinite,
      Format.decode_of_isFinite other, Format.mulData, if_neg present]

theorem software_convertsCorrectly : software.ConvertsCorrectly where
  finite := by
    intro source target mode a finite
    simp only [software, Floating.convert, Format.decode_of_isFinite finite]
    exact Format.round_correct target.one_lt_exponentBits mode _ _ _
  infinite := by
    intro source target mode a infinite
    simp only [software, Floating.convert, Format.decode_of_isInfinite infinite]
  integer := by
    intro precision mode value least most
    rw [← number_intCast value]
    exact Format.round_correct precision.one_lt_exponentBits mode _ _ _

theorem software_convertsToIntegers : software.ConvertsToIntegers where
  fits := by
    intro precision mode width a least most finite lower upper
    simp only [software, Format.toInteger, Format.decode_of_isFinite finite,
      Datum.toInteger_finite]
    exact if_pos ⟨lower, upper⟩
  invalid := by
    intro precision mode width a least most beyond
    simp only [software, Format.toInteger]
    cases finite : precision.format.isFinite a with
    | true =>
      simp only [finite, true_and] at beyond
      rw [Format.decode_of_isFinite finite, Datum.toInteger_finite]
      exact congrArg IntegerAnswer.flags (if_neg beyond)
    | false =>
      cases infinite : precision.format.isInfinite a with
      | true =>
        rw [Format.decode_of_isInfinite infinite]
        rfl
      | false =>
        have odd : precision.format.isNan a = true := by
          rw [Format.isNan_eq, finite, infinite]
          rfl
        obtain ⟨payload, denoted⟩ := Format.decode_of_isNan odd
        rw [denoted]
        rfl
  isNan := fun precision a => precision.format.isNan_decode a
  isNegative := fun precision a => precision.format.negative_decode a

end Floating.Arithmetic

end R3000

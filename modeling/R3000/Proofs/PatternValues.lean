import Mathlib.Algebra.Order.Field.Power
import Mathlib.Data.Rat.Floor
import Mathlib.Order.WithBot
import R3000.Floating.Format

/-!
# Patterns and the numbers they denote

A pattern is its sign and the bits below it, its magnitude part. A magnitude part below that of
infinity denotes a finite number, and its significand has the leading bit unless the exponent is the
least. So a greater exponent outweighs every significand, and numbers are ordered as their magnitude
parts with the signs before them. In this order both zeros are the same, and every other number has
one pattern.
-/
namespace R3000.Floating

/-! ### Magnitudes with signs -/

@[simp] theorem signed_false (magnitude : ℕ) : signed false magnitude = magnitude := rfl

@[simp] theorem signed_true (magnitude : ℕ) : signed true magnitude = -(magnitude : ℤ) := rfl

theorem signed_injective (negative : Bool) : Function.Injective (signed negative) := by
  intro x y same
  cases negative <;> simp only [signed_false, signed_true] at same <;> omega

/-- Magnitudes of the same order and with the same zeros keep their order under signs. -/
theorem cmp_signed {x y u v : ℕ} (less : x < y ↔ u < v) (greater : y < x ↔ v < u)
    (zero : x = 0 ↔ u = 0) (other : y = 0 ↔ v = 0) (a b : Bool) :
    cmp (signed a x) (signed b y) = cmp (signed a u) (signed b v) := by
  have below : signed a x < signed b y ↔ signed a u < signed b v := by
    cases a <;> cases b <;> simp only [signed_false, signed_true] <;> omega
  have above : signed b y < signed a x ↔ signed b v < signed a u := by
    cases a <;> cases b <;> simp only [signed_false, signed_true] <;> omega
  simp only [cmp, cmpUsing, below, above]

/-- A number with a sign. -/
def number (negative : Bool) (significand : ℕ) (exponent : ℤ) : ℚ :=
  ((signed negative significand : ℤ) : ℚ) * 2 ^ exponent

theorem number_shifted (negative : Bool) (significand : ℕ) {exponent place : ℤ}
    (below : place ≤ exponent) :
    number negative (significand * 2 ^ (exponent - place).toNat) place =
      number negative significand exponent := by
  obtain ⟨places, rfl⟩ := Int.le.dest below
  have lifted : (place + places - place).toNat = places := by omega
  rw [number, number, lifted, zpow_add₀ two_ne_zero, zpow_natCast]
  cases negative <;> simp only [signed_true, signed_false] <;> push_cast <;> ring

theorem number_not (negative : Bool) (significand : ℕ) (exponent : ℤ) :
    number (!negative) significand exponent = -number negative significand exponent := by
  cases negative <;> simp [number]

theorem abs_number (negative : Bool) (significand : ℕ) (exponent : ℤ) :
    |number negative significand exponent| = (significand : ℚ) * 2 ^ exponent := by
  have scale : (0 : ℚ) < 2 ^ exponent := zpow_pos two_pos _
  rw [number, abs_mul, abs_of_pos scale]
  cases negative <;> simp

/-- Numbers are compared in units that both are multiples of. -/
theorem cmp_number (a b : Bool) (m n : ℕ) (d e : ℤ) :
    cmp (number a m d) (number b n e) =
      cmp (signed a (m * 2 ^ (d - min d e).toNat)) (signed b (n * 2 ^ (e - min d e).toNat)) := by
  have scale : (0 : ℚ) < 2 ^ min d e := zpow_pos two_pos _
  rw [← number_shifted a m (Int.min_le_left d e), ← number_shifted b n (Int.min_le_right d e),
    number, number, cmp_mul_pos_right scale, Int.cast_strictMono.cmp_map_eq]

theorem shifted_eq_zero_iff (significand places : ℕ) :
    significand * 2 ^ places = 0 ↔ significand = 0 := by
  rw [Nat.mul_eq_zero]
  exact or_iff_left (Nat.ne_of_gt (Nat.two_pow_pos _))

namespace Format

variable (format : Format)

/-! ### Sign and magnitude part -/

theorem magnitudeOf_lt (pattern : BitVec format.width) :
    format.magnitudeOf pattern < 2 ^ (format.exponentBits + format.fractionBits) :=
  Nat.mod_lt _ (Nat.two_pow_pos _)

theorem two_pow_width :
    2 ^ format.width = 2 * 2 ^ (format.exponentBits + format.fractionBits) := by
  rw [width, Nat.add_assoc, Nat.add_comm 1, Nat.pow_succ, Nat.mul_comm]

theorem toNat_pack (negative : Bool) {magnitude : ℕ}
    (fits : magnitude < 2 ^ (format.exponentBits + format.fractionBits)) :
    (format.pack negative magnitude).toNat =
      (if negative then 2 ^ (format.exponentBits + format.fractionBits) else 0) + magnitude := by
  have room := format.two_pow_width
  rw [pack, BitVec.toNat_ofNat]
  apply Nat.mod_eq_of_lt
  split <;> omega

/-- The sign of a pattern says whether it lies in the upper half. -/
theorem msb_eq (pattern : BitVec format.width) :
    pattern.msb = decide (2 ^ (format.exponentBits + format.fractionBits) ≤ pattern.toNat) := by
  have below : format.width - 1 = format.exponentBits + format.fractionBits := by
    rw [width, Nat.add_assoc, Nat.add_sub_cancel_left]
  rw [BitVec.msb_eq_decide, below]

theorem pack_magnitudeOf (pattern : BitVec format.width) :
    format.pack pattern.msb (format.magnitudeOf pattern) = pattern := by
  apply BitVec.eq_of_toNat_eq
  have bound : pattern.toNat < 2 ^ format.width := pattern.isLt
  have room := format.two_pow_width
  rw [format.toNat_pack _ (format.magnitudeOf_lt pattern), format.msb_eq, magnitudeOf]
  by_cases upper : 2 ^ (format.exponentBits + format.fractionBits) ≤ pattern.toNat
  · have less : pattern.toNat - 2 ^ (format.exponentBits + format.fractionBits) <
        2 ^ (format.exponentBits + format.fractionBits) := by omega
    rw [Nat.mod_eq_sub_mod upper, Nat.mod_eq_of_lt less]
    simp only [upper, decide_true, if_true]
    omega
  · rw [Nat.mod_eq_of_lt (Nat.lt_of_not_le upper)]
    simp [upper]

theorem msb_pack (negative : Bool) {magnitude : ℕ}
    (fits : magnitude < 2 ^ (format.exponentBits + format.fractionBits)) :
    (format.pack negative magnitude).msb = negative := by
  rw [msb_eq, format.toNat_pack _ fits]
  cases negative with
  | false => simpa using fits
  | true => simp

theorem magnitudeOf_pack (negative : Bool) {magnitude : ℕ}
    (fits : magnitude < 2 ^ (format.exponentBits + format.fractionBits)) :
    format.magnitudeOf (format.pack negative magnitude) = magnitude := by
  rw [magnitudeOf, format.toNat_pack _ fits]
  cases negative <;> simp [Nat.mod_eq_of_lt fits]

theorem infinityMagnitude_lt :
    format.infinityMagnitude < 2 ^ (format.exponentBits + format.fractionBits) := by
  rw [infinityMagnitude, Nat.pow_add]
  have positive := Nat.two_pow_pos format.exponentBits
  exact Nat.mul_lt_mul_of_pos_right (by omega) (Nat.two_pow_pos _)

/-! ### Fields -/

def exponentField (pattern : BitVec format.width) : BitVec format.exponentBits :=
  pattern.extractLsb' format.fractionBits format.exponentBits

def fractionField (pattern : BitVec format.width) : BitVec format.fractionBits :=
  pattern.extractLsb' 0 format.fractionBits

theorem toNat_exponentField (pattern : BitVec format.width) :
    (format.exponentField pattern).toNat =
      format.magnitudeOf pattern / 2 ^ format.fractionBits := by
  rw [exponentField, BitVec.extractLsb'_toNat, Nat.shiftRight_eq_div_pow, magnitudeOf,
    Nat.add_comm format.exponentBits, Nat.pow_add, Nat.mod_mul_right_div_self]

theorem toNat_fractionField (pattern : BitVec format.width) :
    (format.fractionField pattern).toNat =
      format.magnitudeOf pattern % 2 ^ format.fractionBits := by
  rw [fractionField, BitVec.extractLsb'_toNat, Nat.shiftRight_zero, magnitudeOf,
    Nat.mod_mod_of_dvd _ (Nat.pow_dvd_pow 2 (Nat.le_add_left _ _))]

theorem magnitudeOf_eq (pattern : BitVec format.width) :
    format.magnitudeOf pattern =
      (format.exponentField pattern).toNat * 2 ^ format.fractionBits +
        (format.fractionField pattern).toNat := by
  rw [toNat_exponentField, toNat_fractionField, Nat.div_add_mod']

variable {format} in
/-- A pattern is its sign and its fields. -/
theorem eq_of_fields {a b : BitVec format.width}
    (exponents : format.exponentField a = format.exponentField b)
    (fractions : format.fractionField a = format.fractionField b) (sign : a.msb = b.msb) :
    a = b := by
  rw [← format.pack_magnitudeOf a, ← format.pack_magnitudeOf b, magnitudeOf_eq, magnitudeOf_eq,
    exponents, fractions, sign]

/-- The exponent field of a pattern is not full. -/
def isFinite (pattern : BitVec format.width) : Bool :=
  format.exponentField pattern != BitVec.allOnes format.exponentBits

/-- The exponent field of a pattern is full and its fraction is zero. -/
def isInfinite (pattern : BitVec format.width) : Bool :=
  format.exponentField pattern == BitVec.allOnes format.exponentBits &&
    format.fractionField pattern == 0

/-- The exponent field of a pattern is full and its fraction is not zero. -/
def isNan (pattern : BitVec format.width) : Bool :=
  format.exponentField pattern == BitVec.allOnes format.exponentBits &&
    format.fractionField pattern != 0

variable {format} {a b pattern : BitVec format.width}

theorem exponentField_eq_zero_iff :
    format.exponentField pattern = 0 ↔ (format.exponentField pattern).toNat = 0 := by
  rw [← BitVec.toNat_inj]
  simp

theorem magnitudeOf_eq_zero_iff :
    format.magnitudeOf pattern = 0 ↔
      format.exponentField pattern = 0 ∧ format.fractionField pattern = 0 := by
  rw [exponentField_eq_zero_iff, ← BitVec.toNat_inj, magnitudeOf_eq, Nat.add_eq_zero_iff,
    shifted_eq_zero_iff]
  simp

theorem isFinite_iff :
    format.isFinite pattern = true ↔ format.magnitudeOf pattern < format.infinityMagnitude := by
  have bound := (format.exponentField pattern).isLt
  rw [isFinite, bne_iff_ne, ne_eq, ← BitVec.toNat_inj, BitVec.toNat_allOnes, infinityMagnitude,
    ← Nat.div_lt_iff_lt_mul (Nat.two_pow_pos _), ← toNat_exponentField]
  omega

theorem isInfinite_iff :
    format.isInfinite pattern = true ↔
      format.magnitudeOf pattern = format.infinityMagnitude := by
  have zero : (0 : BitVec format.fractionBits).toNat = 0 := by simp
  rw [isInfinite, Bool.and_eq_true, beq_iff_eq, beq_iff_eq, ← BitVec.toNat_inj, ← BitVec.toNat_inj,
    BitVec.toNat_allOnes, zero]
  constructor
  · rintro ⟨full, whole⟩
    rw [magnitudeOf_eq, full, whole]
    rfl
  · intro same
    rw [toNat_exponentField, toNat_fractionField, same, infinityMagnitude]
    exact ⟨Nat.mul_div_cancel _ (Nat.two_pow_pos _), Nat.mul_mod_left _ _⟩

/-- A pattern is finite or infinite, or denotes no number. -/
theorem isNan_eq (pattern : BitVec format.width) :
    format.isNan pattern = (!format.isFinite pattern && !format.isInfinite pattern) := by
  simp only [isNan, isFinite, isInfinite, bne]
  cases format.exponentField pattern == BitVec.allOnes format.exponentBits <;> simp

theorem isFinite_of_number (number : format.isNan pattern = false)
    (other : format.isInfinite pattern = false) : format.isFinite pattern = true := by
  rw [isNan_eq, other] at number
  simpa using number

theorem isNan_of_isFinite (finite : format.isFinite pattern = true) :
    format.isNan pattern = false := by
  rw [isNan_eq, finite]
  rfl

theorem isNan_of_isInfinite (infinite : format.isInfinite pattern = true) :
    format.isNan pattern = false := by
  rw [isNan_eq, infinite, Bool.not_true, Bool.and_false]

theorem isFinite_of_isInfinite (infinite : format.isInfinite pattern = true) :
    format.isFinite pattern = false := by
  rw [← Bool.not_eq_true, isFinite_iff, isInfinite_iff.mp infinite]
  exact Nat.lt_irrefl _

theorem eq_packInfinity_iff {negative : Bool} :
    pattern = format.packInfinity negative ↔
      pattern.msb = negative ∧ format.isInfinite pattern = true := by
  rw [isInfinite_iff]
  constructor
  · rintro rfl
    exact ⟨format.msb_pack negative format.infinityMagnitude_lt,
      format.magnitudeOf_pack negative format.infinityMagnitude_lt⟩
  · rintro ⟨sign, full⟩
    rw [← format.pack_magnitudeOf pattern, sign, full]
    rfl

/-! ### Normalized numbers -/

variable (format) in
/-- A significand and an exponent in the form in which the format has a number, unless the exponent
is too large. -/
structure Normalized (significand : ℕ) (exponent : ℤ) : Prop where
  least_le : format.leastExponent ≤ exponent
  fits : significand < 2 ^ (format.fractionBits + 1)
  leading : exponent = format.leastExponent ∨ 2 ^ format.fractionBits ≤ significand

variable (format) in
theorem magnitude_least (significand : ℕ) :
    format.magnitude significand format.leastExponent = significand := by
  simp [magnitude]

namespace Normalized

variable {m n : ℕ} {d e : ℤ}

/-- The format has zero with the least exponent only. -/
theorem magnitude_eq_zero_iff (normalized : format.Normalized m d) :
    format.magnitude m d = 0 ↔ m = 0 := by
  have positive : 0 < 2 ^ format.fractionBits := Nat.two_pow_pos _
  constructor
  · intro none
    exact (Nat.add_eq_zero_iff.mp none).2
  · intro zero
    have least : d = format.leastExponent := normalized.leading.resolve_right (by omega)
    rw [least, magnitude_least, zero]

/-- A greater exponent outweighs every significand. -/
theorem lt_of_exponent_lt (first : format.Normalized m d) (second : format.Normalized n e)
    (apart : d < e) :
    m < n * 2 ^ (e - d).toNat ∧ format.magnitude m d < format.magnitude n e := by
  have least := first.least_le
  -- The second exponent is not the least, so its significand has the leading bit.
  have leading : 2 ^ format.fractionBits ≤ n := second.leading.resolve_left (by omega)
  have small : m < 2 * 2 ^ format.fractionBits := by
    have fits := first.fits
    rwa [Nat.pow_succ, Nat.mul_comm] at fits
  obtain ⟨more, places⟩ : ∃ more, (e - d).toNat = more + 1 := ⟨(e - d).toNat - 1, by omega⟩
  constructor
  · have shifted : 2 ^ format.fractionBits * 2 ≤ n * 2 ^ (e - d).toNat := by
      rw [places, Nat.pow_succ, Nat.mul_comm (2 ^ more), ← Nat.mul_assoc]
      exact Nat.le_trans (Nat.mul_le_mul_right 2 leading)
        (Nat.le_mul_of_pos_right _ (Nat.two_pow_pos more))
    omega
  · have field : ((d - format.leastExponent).toNat + 1) * 2 ^ format.fractionBits ≤
        (e - format.leastExponent).toNat * 2 ^ format.fractionBits :=
      Nat.mul_le_mul_right _ (by omega)
    rw [Nat.succ_mul] at field
    simp only [magnitude]
    omega

/-- Normalized numbers are ordered as their magnitude parts, in any unit that both are multiples
of. -/
theorem lt_iff (first : format.Normalized m d) (second : format.Normalized n e) :
    m * 2 ^ (d - min d e).toNat < n * 2 ^ (e - min d e).toNat ↔
      format.magnitude m d < format.magnitude n e := by
  rcases Int.lt_trichotomy d e with below | rfl | above
  · obtain ⟨units, magnitudes⟩ := first.lt_of_exponent_lt second below
    rw [Int.min_eq_left (Int.le_of_lt below), Int.sub_self]
    simpa [magnitudes] using units
  · simp [magnitude]
  · obtain ⟨units, magnitudes⟩ := second.lt_of_exponent_lt first above
    rw [Int.min_eq_right (Int.le_of_lt above), Int.sub_self]
    have against := Nat.not_lt.mpr (Nat.le_of_lt magnitudes)
    simpa [against] using Nat.le_of_lt units

theorem cmp_eq (first : format.Normalized m d) (second : format.Normalized n e) (a b : Bool) :
    cmp (number a m d) (number b n e) =
      cmp (signed a (format.magnitude m d)) (signed b (format.magnitude n e)) := by
  have greater := second.lt_iff first
  rw [Int.min_comm] at greater
  rw [cmp_number]
  exact cmp_signed (first.lt_iff second) greater
    ((shifted_eq_zero_iff m _).trans first.magnitude_eq_zero_iff.symm)
    ((shifted_eq_zero_iff n _).trans second.magnitude_eq_zero_iff.symm) a b

/-- A number has one normalized form. -/
theorem unique (first : format.Normalized m d) (second : format.Normalized n e)
    (same : format.magnitude m d = format.magnitude n e) : m = n ∧ d = e := by
  rcases Int.lt_trichotomy d e with below | rfl | above
  · exact absurd same (Nat.ne_of_lt (first.lt_of_exponent_lt second below).2)
  · exact ⟨Nat.add_left_cancel same, rfl⟩
  · exact absurd same (Nat.ne_of_gt (second.lt_of_exponent_lt first above).2)

end Normalized

/-! ### Values -/

variable (format) in
/-- The significand of a finite number, with the leading bit that a pattern leaves out unless its
exponent field is zero. -/
def significand (pattern : BitVec format.width) : ℕ :=
  (if format.exponentField pattern = 0 then 0 else 2 ^ format.fractionBits) +
    (format.fractionField pattern).toNat

variable (format) in
/-- The exponent of its last place. An exponent field of zero counts as one. -/
def exponent (pattern : BitVec format.width) : ℤ :=
  ((max 1 (format.exponentField pattern).toNat : ℕ) : ℤ) - format.bias - format.fractionBits

variable (format) in
/-- The exact value of a finite number. -/
def value (pattern : BitVec format.width) : ℚ :=
  number pattern.msb (format.significand pattern) (format.exponent pattern)

variable (format) in
theorem normalized (pattern : BitVec format.width) :
    format.Normalized (format.significand pattern) (format.exponent pattern) := by
  have fraction := (format.fractionField pattern).isLt
  have double : 2 ^ (format.fractionBits + 1) = 2 * 2 ^ format.fractionBits := by
    rw [Nat.pow_succ, Nat.mul_comm]
  simp only [significand, exponent, exponentField_eq_zero_iff]
  split
  next subnormal =>
    refine ⟨?_, by omega, .inl ?_⟩ <;> simp only [leastExponent] <;> omega
  next normal =>
    refine ⟨?_, by omega, .inr (by omega)⟩
    simp only [leastExponent]
    omega

variable (format) in
/-- The first exponent field belongs to the least exponent, with a leading bit. -/
theorem magnitude_pattern (pattern : BitVec format.width) :
    format.magnitude (format.significand pattern) (format.exponent pattern) =
      format.magnitudeOf pattern := by
  rw [magnitudeOf_eq]
  simp only [significand, exponent, magnitude, leastExponent, exponentField_eq_zero_iff]
  generalize (format.exponentField pattern).toNat = field
  split
  next subnormal =>
    have places : (((max 1 field : ℕ) : ℤ) - format.bias - format.fractionBits -
        (1 - format.bias - format.fractionBits)).toNat = field := by
      omega
    rw [places, Nat.zero_add]
  next normal =>
    obtain ⟨before, rfl⟩ := Nat.exists_eq_succ_of_ne_zero normal
    have places : (((max 1 before.succ : ℕ) : ℤ) - format.bias - format.fractionBits -
        (1 - format.bias - format.fractionBits)).toNat = before := by
      omega
    rw [places, Nat.succ_mul, Nat.add_assoc]

/-- The pattern of a normalized number has its value. -/
theorem Normalized.value_pack {m : ℕ} {d : ℤ} (normalized : format.Normalized m d)
    (fits : format.magnitude m d < 2 ^ (format.exponentBits + format.fractionBits))
    (negative : Bool) :
    format.value (format.pack negative (format.magnitude m d)) = number negative m d := by
  have same := format.magnitude_pattern (format.pack negative (format.magnitude m d))
  rw [format.magnitudeOf_pack negative fits] at same
  obtain ⟨significand, exponent⟩ := (format.normalized _).unique normalized same
  rw [value, significand, exponent, format.msb_pack negative fits]

/-! ### The order of patterns -/

variable (format) in
/-- A pattern as a magnitude with a sign. -/
def signMagnitude (pattern : BitVec format.width) : ℤ :=
  signed pattern.msb (format.magnitudeOf pattern)

theorem cmp_value (a b : BitVec format.width) :
    cmp (format.value a) (format.value b) =
      cmp (format.signMagnitude a) (format.signMagnitude b) := by
  rw [value, value, (format.normalized a).cmp_eq (format.normalized b), magnitude_pattern,
    magnitude_pattern]
  rfl

/-- The value of a pattern and its sign say what it is. -/
theorem eq_of_value_eq (same : format.value a = format.value b) (sign : a.msb = b.msb) : a = b := by
  have equal : format.signMagnitude a = format.signMagnitude b := by
    rw [← cmp_eq_eq_iff, ← cmp_value, same, cmp_self_eq_eq]
  rw [signMagnitude, signMagnitude, sign] at equal
  rw [← format.pack_magnitudeOf a, ← format.pack_magnitudeOf b, sign, signed_injective _ equal]

variable (format) in
/-- What a pattern denotes that denotes a number: a finite number, or an infinity at one of the
ends. -/
def point (pattern : BitVec format.width) : WithBot (WithTop ℚ) :=
  if format.isFinite pattern then ((format.value pattern : WithTop ℚ) : WithBot (WithTop ℚ))
  else if pattern.msb then ⊥
  else ⊤

theorem coe_coe_lt_top (value : ℚ) : ((value : WithTop ℚ) : WithBot (WithTop ℚ)) < ⊤ :=
  WithBot.coe_lt_coe.mpr (WithTop.coe_lt_top value)

theorem point_of_isFinite (finite : format.isFinite pattern = true) :
    format.point pattern = ((format.value pattern : WithTop ℚ) : WithBot (WithTop ℚ)) :=
  if_pos finite

theorem signMagnitude_of_isInfinite (infinite : format.isInfinite pattern = true) :
    format.signMagnitude pattern = signed pattern.msb format.infinityMagnitude := by
  rw [signMagnitude, isInfinite_iff.mp infinite]

theorem point_of_isInfinite (infinite : format.isInfinite pattern = true) :
    format.point pattern = if pattern.msb then ⊥ else ⊤ := by
  rw [point, isFinite_of_isInfinite infinite]
  exact if_neg Bool.false_ne_true

/-- Only finite patterns denote finite numbers. -/
theorem point_eq_coe_iff {exact : ℚ} :
    format.point pattern = ((exact : WithTop ℚ) : WithBot (WithTop ℚ)) ↔
      format.isFinite pattern = true ∧ format.value pattern = exact := by
  rw [point]
  split
  next finite => simp [finite]
  next odd =>
    have below := ne_of_gt (coe_coe_lt_top exact)
    simp only [odd, Bool.false_eq_true, false_and, iff_false]
    split
    · exact WithBot.bot_ne_coe
    · exact below

/-- What a pattern denotes and its sign say what it is. -/
theorem eq_of_point_eq (number : format.isNan a = false) (counted : format.isNan b = false)
    (same : format.point a = format.point b) (sign : a.msb = b.msb) : a = b := by
  cases kind : format.isInfinite a with
  | false =>
    have finite := isFinite_of_number number kind
    have equal := point_eq_coe_iff.mp (same.symm.trans (point_of_isFinite finite))
    exact eq_of_value_eq equal.2.symm sign
  | true =>
    cases other : format.isInfinite b with
    | true =>
      exact (eq_packInfinity_iff.mpr ⟨sign, kind⟩).trans
        (eq_packInfinity_iff.mpr ⟨rfl, other⟩).symm
    | false =>
      have finite := isFinite_of_number counted other
      have equal := point_eq_coe_iff.mp (same.trans (point_of_isFinite finite))
      rw [isFinite_of_isInfinite kind] at equal
      cases equal.1

/-- Every finite magnitude lies below that of infinity. -/
theorem abs_signMagnitude_lt (finite : format.isFinite pattern = true) :
    -(format.infinityMagnitude : ℤ) < format.signMagnitude pattern ∧
      format.signMagnitude pattern < format.infinityMagnitude := by
  have below := isFinite_iff.mp finite
  rw [signMagnitude]
  cases pattern.msb <;> simp only [signed_false, signed_true] <;> omega

theorem point_lt_iff (infinite : 0 < format.infinityMagnitude) (number : format.isNan a = false)
    (counted : format.isNan b = false) :
    format.point a < format.point b ↔ format.signMagnitude a < format.signMagnitude b := by
  cases kind : format.isInfinite a with
  | false =>
    have finite := isFinite_of_number number kind
    have range := abs_signMagnitude_lt finite
    rw [point_of_isFinite finite]
    cases other : format.isInfinite b with
    | false =>
      rw [point_of_isFinite (isFinite_of_number counted other), WithBot.coe_lt_coe,
        WithTop.coe_lt_coe, ← cmp_eq_lt_iff, cmp_value, cmp_eq_lt_iff]
    | true =>
      rw [point_of_isInfinite other, signMagnitude_of_isInfinite other]
      cases b.msb with
      | false => exact iff_of_true (coe_coe_lt_top _) range.2
      | true => simpa using Int.le_of_lt range.1
  | true =>
    rw [point_of_isInfinite kind, signMagnitude_of_isInfinite kind]
    cases other : format.isInfinite b with
    | false =>
      have finite := isFinite_of_number counted other
      have range := abs_signMagnitude_lt finite
      rw [point_of_isFinite finite]
      cases a.msb with
      | false => simpa using Int.le_of_lt range.2
      | true => simpa using range.1
    | true =>
      rw [point_of_isInfinite other, signMagnitude_of_isInfinite other]
      cases a.msb <;> cases b.msb <;> simp [infinite]

/-- Patterns of numbers are ordered as magnitudes with signs. -/
theorem cmp_point (infinite : 0 < format.infinityMagnitude) (number : format.isNan a = false)
    (counted : format.isNan b = false) :
    cmp (format.point a) (format.point b) =
      cmp (format.signMagnitude a) (format.signMagnitude b) := by
  simp only [cmp, cmpUsing, point_lt_iff infinite number counted,
    point_lt_iff infinite counted number]

variable (format) in
/-- One of two patterns denotes no number. -/
def Unordered (a b : BitVec format.width) : Prop := format.isNan a = true ∨ format.isNan b = true

instance : Decidable (format.Unordered a b) := inferInstanceAs (Decidable (_ ∨ _))

/-! ### Patterns with the sign inverted -/

variable (format) (pattern)

theorem magnitudeOf_xor_intMin :
    format.magnitudeOf (pattern ^^^ BitVec.intMin format.width) = format.magnitudeOf pattern := by
  have sign : (BitVec.intMin format.width).toNat =
      2 ^ (format.exponentBits + format.fractionBits) := by
    have place : format.width - 1 = format.exponentBits + format.fractionBits := by
      rw [width, Nat.add_assoc, Nat.add_sub_cancel_left]
    rw [BitVec.toNat_intMin, place, Nat.mod_eq_of_lt]
    rw [two_pow_width]
    have positive := Nat.two_pow_pos (format.exponentBits + format.fractionBits)
    omega
  rw [magnitudeOf, magnitudeOf, BitVec.toNat_xor, Nat.xor_mod_two_pow, sign, Nat.mod_self,
    Nat.xor_zero]

theorem msb_xor_intMin : (pattern ^^^ BitVec.intMin format.width).msb = !pattern.msb := by
  have positive : 0 < format.width := by
    rw [width, Nat.add_assoc]
    omega
  rw [BitVec.msb_xor, BitVec.msb_intMin, decide_eq_true positive, Bool.xor_true]

theorem exponentField_xor_intMin :
    format.exponentField (pattern ^^^ BitVec.intMin format.width) =
      format.exponentField pattern := by
  rw [← BitVec.toNat_inj, toNat_exponentField, toNat_exponentField, magnitudeOf_xor_intMin]

theorem fractionField_xor_intMin :
    format.fractionField (pattern ^^^ BitVec.intMin format.width) =
      format.fractionField pattern := by
  rw [← BitVec.toNat_inj, toNat_fractionField, toNat_fractionField, magnitudeOf_xor_intMin]

theorem isNan_xor_intMin :
    format.isNan (pattern ^^^ BitVec.intMin format.width) = format.isNan pattern := by
  rw [isNan, isNan, exponentField_xor_intMin, fractionField_xor_intMin]

theorem isFinite_xor_intMin :
    format.isFinite (pattern ^^^ BitVec.intMin format.width) = format.isFinite pattern := by
  rw [isFinite, isFinite, exponentField_xor_intMin]

theorem isInfinite_xor_intMin :
    format.isInfinite (pattern ^^^ BitVec.intMin format.width) = format.isInfinite pattern := by
  rw [isInfinite, isInfinite, exponentField_xor_intMin, fractionField_xor_intMin]

theorem value_xor_intMin :
    format.value (pattern ^^^ BitVec.intMin format.width) = -format.value pattern := by
  rw [value, value, ← number_not, msb_xor_intMin]
  simp only [significand, exponent, exponentField_xor_intMin, fractionField_xor_intMin]

/-- The inversion undoes itself. -/
theorem xor_intMin_twice :
    pattern ^^^ BitVec.intMin format.width ^^^ BitVec.intMin format.width = pattern := by
  rw [BitVec.xor_assoc, BitVec.xor_self, BitVec.xor_zero]

end Format

end R3000.Floating

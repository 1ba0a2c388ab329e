import R3000.Floating.Arithmetic

/-!
# Rounding

An exact result is a ratio of two natural numbers times a power of two, with a
sign. It is rounded once: to a multiple of the last place that the format has
at that magnitude, in the direction of the rounding mode.

A result that is not exact raises `inexact`. It also raises `underflow` when
what remains is subnormal or zero, and `overflow` when it becomes an infinity.
A result too large for the format that is not rounded away from zero stays the
largest number.
-/
namespace R3000.Floating

/-- The directed mode that moves numbers of this sign away from zero. -/
def Mode.awayFromZero (negative : Bool) : Mode :=
  if negative then .towardNegative else .towardPositive

/-! ### Integers -/

/-- Whether a quotient with a remainder is rounded away from zero. -/
def roundsAway (mode : Mode) (negative : Bool) (quotient remainder denominator : Nat) : Bool :=
  match mode with
  | .nearestEven =>
    denominator < 2 * remainder || (denominator == 2 * remainder && quotient % 2 == 1)
  | .towardZero => false
  | .towardPositive => remainder != 0 && !negative
  | .towardNegative => remainder != 0 && negative

/-- The magnitude of `numerator / denominator`, rounded to an integer. -/
def roundRatio (mode : Mode) (negative : Bool) (numerator denominator : Nat) : Nat :=
  let quotient := numerator / denominator
  if roundsAway mode negative quotient (numerator % denominator) denominator then quotient + 1
  else quotient

/-! ### Numbers of a format -/

/-- A magnitude `numerator / denominator * 2 ^ exponent`. -/
structure Exact where
  numerator : Nat
  denominator : Nat
  exponent : Int
  deriving DecidableEq, Repr

namespace Exact

def ofScaled (significand : Nat) (exponent : Int) : Exact := ⟨significand, 1, exponent⟩

/-- The ratio of numerator to denominator in units of `2 ^ place`, without the power of two. -/
def inUnits (exact : Exact) (place : Int) : Nat × Nat :=
  let lift := exact.exponent - place
  (exact.numerator * 2 ^ lift.toNat, exact.denominator * 2 ^ (-lift).toNat)

/-- The exponent of the leading bit. -/
def leadingExponent (exact : Exact) : Int :=
  let estimate := (exact.numerator.log2 : Int) - exact.denominator.log2
  let (numerator, denominator) := (Exact.mk exact.numerator exact.denominator 0).inUnits estimate
  exact.exponent + (if numerator < denominator then estimate - 1 else estimate)

end Exact

namespace Format

/-- The exponent of the last place that the format has at a magnitude. -/
def lastPlace (format : Format) (exact : Exact) : Int :=
  max format.leastExponent (exact.leadingExponent - format.fractionBits)

/-- What becomes of a rounded magnitude that may be too large. -/
def saturate (format : Format) (mode : Mode) (negative : Bool) : Answer format.width :=
  if mode = .nearestEven || mode = Mode.awayFromZero negative then
    ⟨format.packInfinity negative, { inexact := true, overflow := true }⟩
  else
    ⟨format.pack negative (format.infinityMagnitude - 1), { inexact := true }⟩

/-- The number of the format for an exact magnitude and a sign. -/
def round (format : Format) (mode : Mode) (negative : Bool) (exact : Exact) :
    Answer format.width :=
  if exact.numerator = 0 then ⟨format.packZero negative, .none⟩
  else
    let place := format.lastPlace exact
    let (numerator, denominator) := exact.inUnits place
    let rounded := format.magnitude (roundRatio mode negative numerator denominator) place
    let inexact := numerator % denominator != 0
    if format.infinityMagnitude ≤ rounded then format.saturate mode negative
    else
      ⟨format.pack negative rounded,
        { inexact, underflow := inexact && rounded < format.leastNormalMagnitude }⟩

end Format

end R3000.Floating

import R3000.Word

/-!
# Binary floating point formats

A pattern has a sign bit, an exponent field and a fraction field. It denotes a
signed number `significand * 2 ^ exponent`, an infinity, or a datum that is not
a number and carries the fraction field as its payload.

Within one sign, patterns are ordered as the numbers they denote: the pattern
after the largest significand of one exponent is the smallest significand of
the next. Packing a number therefore adds its significand to the multiple of
`2 ^ fractionBits` that its exponent selects, and a carry out of the fraction
moves to the next exponent by itself.
-/
namespace R3000.Floating

/-- A magnitude with a sign. -/
def signed (negative : Bool) (magnitude : Nat) : Int :=
  if negative then -(magnitude : Int) else magnitude

structure Format where
  exponentBits : Nat
  fractionBits : Nat
  deriving DecidableEq, Repr

namespace Format

abbrev width (format : Format) : Nat := 1 + format.exponentBits + format.fractionBits

/-- The exponent field of one. -/
def bias (format : Format) : Nat := 2 ^ (format.exponentBits - 1) - 1

/-- The exponent of the smallest positive number, in which subnormal numbers count. -/
def leastExponent (format : Format) : Int := 1 - (format.bias : Int) - format.fractionBits

/-- The magnitude part of infinity: all exponent bits. -/
def infinityMagnitude (format : Format) : Nat :=
  (2 ^ format.exponentBits - 1) * 2 ^ format.fractionBits

/-- The magnitude part of the smallest number that is not subnormal. -/
def leastNormalMagnitude (format : Format) : Nat := 2 ^ format.fractionBits

/-- The fraction bit that is set in a datum which does not signal. -/
def quietBit (format : Format) : Nat := 2 ^ (format.fractionBits - 1)

/-- The pattern of a sign and a magnitude part. -/
def pack (format : Format) (negative : Bool) (magnitude : Nat) : BitVec format.width :=
  BitVec.ofNat format.width
    ((if negative then 2 ^ (format.exponentBits + format.fractionBits) else 0) + magnitude)

/-- The magnitude part of `significand * 2 ^ exponent`. -/
def magnitude (format : Format) (significand : Nat) (exponent : Int) : Nat :=
  (exponent - format.leastExponent).toNat * 2 ^ format.fractionBits + significand

abbrev single : Format := ⟨8, 23⟩
abbrev double : Format := ⟨11, 52⟩

end Format

/-- What a pattern denotes. -/
inductive Datum where
  | nan (negative : Bool) (payload : Nat)
  | infinity (negative : Bool)
  /-- The number `significand * 2 ^ exponent`, with a sign that zero also has. -/
  | finite (negative : Bool) (significand : Nat) (exponent : Int)
  deriving DecidableEq, Repr

namespace Datum

def isNan : Datum → Bool
  | nan _ _ => true
  | infinity _ | finite _ _ _ => false

def negative : Datum → Bool
  | nan sign _ | infinity sign | finite sign _ _ => sign

/-- The datum is not a number, and operations on it are invalid. -/
def signals (format : Format) : Datum → Bool
  | nan _ payload => payload &&& format.quietBit == 0
  | infinity _ | finite _ _ _ => false

end Datum

namespace Format

/-- The bits below the sign. -/
def magnitudeOf (format : Format) (pattern : BitVec format.width) : Nat :=
  pattern.toNat % 2 ^ (format.exponentBits + format.fractionBits)

def decode (format : Format) (pattern : BitVec format.width) : Datum :=
  let negative := pattern.msb
  let field := format.magnitudeOf pattern / 2 ^ format.fractionBits
  let fraction := format.magnitudeOf pattern % 2 ^ format.fractionBits
  if field = 2 ^ format.exponentBits - 1 then
    if fraction = 0 then .infinity negative else .nan negative fraction
  else if field = 0 then .finite negative fraction format.leastExponent
  else .finite negative (2 ^ format.fractionBits + fraction)
    (format.leastExponent + ((field - 1 : Nat) : Int))

/-- The pattern of a datum that is not a number. -/
def packNan (format : Format) (negative : Bool) (payload : Nat) : BitVec format.width :=
  format.pack negative (format.infinityMagnitude + payload)

def packInfinity (format : Format) (negative : Bool) : BitVec format.width :=
  format.pack negative format.infinityMagnitude

def packZero (format : Format) (negative : Bool) : BitVec format.width :=
  format.pack negative 0

/-- The answer of an invalid operation. -/
def defaultNan (format : Format) : BitVec format.width :=
  format.packNan false format.quietBit

def minusOne (format : Format) : BitVec format.width :=
  format.pack true (format.bias * 2 ^ format.fractionBits)

end Format

end R3000.Floating

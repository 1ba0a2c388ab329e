import R3000.Floating.Operations

/-!
# Conversions

Numbers are converted between the formats, and from and to integers. A number
that no word of the asked width holds after rounding is an invalid operand.
-/
namespace R3000.Floating

/-! ### Between formats -/

/-- The leading bits of a fraction field in a field of another size. -/
def movePayload (source target : Format) (payload : Nat) : Nat :=
  payload * 2 ^ (target.fractionBits - source.fractionBits)
    / 2 ^ (source.fractionBits - target.fractionBits)

def convert (source target : Format) (mode : Mode) (a : BitVec source.width) :
    Answer target.width :=
  match source.decode a with
  | .nan negative payload =>
    ⟨target.quiet negative (movePayload source target payload),
      .invalidIf ((source.decode a).signals source)⟩
  | .infinity negative => ⟨target.packInfinity negative, .none⟩
  | .finite negative significand exponent =>
    target.round mode negative (.ofScaled significand exponent)

/-! ### Integers -/

def Format.ofInteger (format : Format) (mode : Mode) (value : Int) : Answer format.width :=
  format.round mode (value < 0) (.ofScaled value.natAbs 0)

/-- The largest magnitude that a signed word has on one side of zero. -/
def wordLimit (width : Nat) (negative : Bool) : Nat :=
  if negative then 2 ^ (width - 1) else 2 ^ (width - 1) - 1

/-- The integer to which a datum is rounded. If no word of the width holds it, the operation is
invalid and gives the nearest integer that one holds, and zero for what is not a number. -/
def Datum.toInteger (mode : Mode) (width : Nat) : Datum → IntegerAnswer
  | .nan _ _ => ⟨0, { invalid := true }⟩
  | .infinity negative => ⟨signed negative (wordLimit width negative), { invalid := true }⟩
  | .finite negative significand exponent =>
    let (numerator, denominator) := (Exact.ofScaled significand exponent).inUnits 0
    let rounded := roundRatio mode negative numerator denominator
    if wordLimit width negative < rounded then
      ⟨signed negative (wordLimit width negative), { invalid := true }⟩
    else ⟨signed negative rounded, { inexact := numerator % denominator != 0 }⟩

def Format.toInteger (format : Format) (mode : Mode) (width : Nat) (a : BitVec format.width) :
    IntegerAnswer :=
  (format.decode a).toInteger mode width

end R3000.Floating

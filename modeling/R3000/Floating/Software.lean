import R3000.Floating.Conversion

/-!
# Arithmetic in software

The library that a unit has unless it is described with another. It finds every
result exactly, as a ratio of integers, and rounds it once.
-/
namespace R3000.Floating

def Arithmetic.software : Arithmetic where
  add := Format.add
  sub := Format.sub
  mul := Format.mul
  div := Format.div
  compare := Format.compare
  convert := Floating.convert
  ofInteger := Format.ofInteger
  toInteger := Format.toInteger
  isNan format a := (format.decode a).isNan
  isNegative format a := (format.decode a).negative

end R3000.Floating

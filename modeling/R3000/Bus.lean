import R3000.Numeral

/-!
# Memories

A memory answers reads and writes of bytes, halves and words at physical
addresses, or refuses them. It keeps a state of its own, which any access may
change. A write of a word changes only the bits that its mask selects; bytes and
halves are written whole.
-/
namespace R3000

inductive BusError where
  /-- The address answers with an error. -/
  | fault (address : Word)
  /-- No device answers at the address. -/
  | unmapped (address : Word)
  deriving DecidableEq, Repr

def BusError.message : BusError → String
  | fault address => "bus error at physical address " ++ Numeral.address address
  | unmapped address => "nothing decodes physical address " ++ Numeral.address address

class Bus (β : Type) where
  read : β → (width : Width) → Word → Except BusError (BitVec width.bits) × β
  write : β → (width : Width) → Word → (value mask : BitVec width.bits) →
    Except BusError Unit × β

/-- The mask of a write that changes every bit. -/
def fullMask (width : Width) : BitVec width.bits := BitVec.allOnes width.bits

end R3000

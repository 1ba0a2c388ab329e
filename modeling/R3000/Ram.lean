import R3000.Bytes

/-!
# Random access memory

A block of bytes at a fixed physical base, which may wrap around the top of the
address space. Address ranges can be marked as faulty: an access whose first
address lies in one of them is refused, before it is checked against the block.
-/
namespace R3000

/-- The addresses from `start` up to, and without, `stop`. -/
structure FaultRange where
  start : Word
  stop : Word
  deriving DecidableEq, Repr

def FaultRange.contains (range : FaultRange) (address : Word) : Bool :=
  range.start ≤ address && address < range.stop

theorem FaultRange.contains_iff (range : FaultRange) (address : Word) :
    range.contains address = true ↔ range.start ≤ address ∧ address < range.stop := by
  simp [FaultRange.contains]

structure Ram where
  base : Word
  order : ByteOrder
  faults : List FaultRange
  data : Array Byte

namespace Ram

/-- A block of `size` zero bytes. -/
def zeroed (base : Word) (size : Nat) (order : ByteOrder) : Ram where
  base
  order
  faults := []
  data := Array.replicate size 0

def injectFault (ram : Ram) (start stop : Word) : Ram :=
  { ram with faults := ⟨start, stop⟩ :: ram.faults }

def clearFaults (ram : Ram) : Ram := { ram with faults := [] }

/-- Where an access begins inside the block. -/
def offset (ram : Ram) (width : Width) (address : Word) : Except BusError Nat :=
  if ram.faults.any (·.contains address) then .error (.fault address)
  else
    let start := (address - ram.base).toNat
    if start + width.bytes ≤ ram.data.size then .ok start else .error (.unmapped address)

/-- The value stored from position `start` on. -/
def valueAt (ram : Ram) (width : Width) (start : Nat) : BitVec width.bits :=
  gather ram.order width fun index => ram.data.getD (start + index) 0

def read (ram : Ram) (width : Width) (address : Word) : Except BusError (BitVec width.bits) :=
  (ram.offset width address).map (ram.valueAt width)

def storeAt (ram : Ram) (width : Width) (start : Nat) (value : BitVec width.bits) : Ram :=
  { ram with data := storeBytes ram.order width value (start + ·) ram.data }

def write (ram : Ram) (width : Width) (address : Word) (value mask : BitVec width.bits) :
    Except BusError Unit × Ram :=
  match ram.offset width address with
  | .error refusal => (.error refusal, ram)
  | .ok start =>
    let merged := mergeMasked (ram.valueAt width start) value mask
    (.ok (), ram.storeAt width start merged)

instance : Bus Ram where
  read ram width address := (ram.read width address, ram)
  write := write

/-- A word that a load of several words could not store. -/
structure DroppedWord where
  word : Word
  reason : BusError
  deriving DecidableEq, Repr

/-- Store words at successive addresses; what cannot be stored is left out and listed. -/
def loadWords (ram : Ram) (address : Word) : List Word → Ram × List DroppedWord
  | [] => (ram, [])
  | word :: rest =>
    match ram.write .word address word (fullMask .word) with
    | (.error reason, ram) =>
      let (ram, dropped) := ram.loadWords (address + 4) rest
      (ram, ⟨word, reason⟩ :: dropped)
    | (.ok _, ram) => ram.loadWords (address + 4) rest

end Ram

end R3000

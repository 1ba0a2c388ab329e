import R3000.Status
import R3000.Tlb

/-!
# System control registers

The registers of coprocessor 0. Most keep whatever is written. The interrupt
inputs own six bits of the cause register, the identification is fixed, and on
parts with a lookaside buffer the registers that work with it have fields that
writes leave alone or clear.
-/
namespace R3000

structure SystemControl where
  regs : Vector Word 32
  deriving DecidableEq

namespace SystemControl

/-! ### Register numbers -/

def indexReg : RegNum := 0
def randomReg : RegNum := 1
def entryLoReg : RegNum := 2
def busControlReg : RegNum := 2
def cacheConfigReg : RegNum := 3
def contextReg : RegNum := 4
def badAddressReg : RegNum := 8
def countReg : RegNum := 9
def entryHiReg : RegNum := 10
def portSizeReg : RegNum := 10
def compareReg : RegNum := 11
def statusReg : RegNum := 12
def causeReg : RegNum := 13
def epcReg : RegNum := 14
def pridReg : RegNum := 15

/-! ### Access -/

def initial : SystemControl := ⟨Vector.replicate 32 0⟩

def read (system : SystemControl) (reg : RegNum) : Word := getElem system.regs reg.val reg.val_lt

/-- Store a value as it is. -/
def put (system : SystemControl) (reg : RegNum) (value : Word) : SystemControl :=
  ⟨system.regs.set reg value reg.val_lt⟩

/-- What is stored is read back, and no other register changes. -/
theorem read_put (system : SystemControl) (reg other : RegNum) (value : Word) :
    (system.put reg value).read other = if other = reg then value else system.read other := by
  unfold put read
  by_cases same : other = reg
  · subst same
    simp
  · have apart : reg.val ≠ other.val := fun equal => same (Fin.ext equal.symm)
    simp [same, apart]

def status (system : SystemControl) : Word := system.read statusReg
def cause (system : SystemControl) : Word := system.read causeReg
def epc (system : SystemControl) : Word := system.read epcReg
def entryHi (system : SystemControl) : Word := system.read entryHiReg

def putStatus (system : SystemControl) (value : Word) : SystemControl := system.put statusReg value
def putCause (system : SystemControl) (value : Word) : SystemControl := system.put causeReg value

/-! ### Write masks -/

/-- The part of the context register that programs write. -/
def contextBase : Word := 0xffe00000

/-- The part of the context register that receives the page of a faulting address. -/
def contextPage : Word := 0x001ffffc

/-- The part of the lower entry word that can be written. -/
def entryLoMask : Word := 0xffffff00

/-- What a register holds after a program writes `value` to it. On parts with a lookaside
buffer its registers are `masked`. -/
def writtenValue (system : SystemControl) (masked : Bool) (reg : RegNum) (value : Word) : Word :=
  if reg = causeReg then replaceBits value Cause.ipex system.cause
  else if reg = pridReg then system.read pridReg
  else if masked then
    if reg = entryHiReg then value &&& (pageMask ||| spaceMask)
    else if reg = entryLoReg then value &&& entryLoMask
    else if reg = contextReg then replaceBits (system.read contextReg) contextBase value
    else value
  else value

def write (system : SystemControl) (masked : Bool) (reg : RegNum) (value : Word) : SystemControl :=
  system.put reg (system.writtenValue masked reg value)

/-! ### Exceptions -/

def pushMode (system : SystemControl) : SystemControl :=
  system.putStatus (Status.push system.status)

def popMode (system : SystemControl) : SystemControl := system.putStatus (Status.pop system.status)

def interruptPending (system : SystemControl) : Bool :=
  R3000.interruptPending system.status system.cause

def recordAddress (system : SystemControl) (address : Word) : SystemControl :=
  system.put badAddressReg address

/-- Tell the handler which address failed: its page and address space become the key of
the next entry, and its page number goes into the context. -/
def recordTlbFault (system : SystemControl) (address key : Word) : SystemControl :=
  ((system.recordAddress address).put entryHiReg key).put contextReg
    ((system.read contextReg &&& contextBase) ||| (address >>> 10 &&& contextPage))

/-- The slot that the index register names. -/
def indexedSlot (system : SystemControl) : Fin 64 :=
  ((system.read indexReg).extractLsb' 8 6).toFin

/-- The value of the index register that names a slot, or says that there is none. -/
def indexOf : Option (Fin 64) → Word
  | some slot => BitVec.ofNat 32 slot.val <<< 8
  | none => 0x80000000

def entry (system : SystemControl) : TlbEntry :=
  ⟨system.read entryHiReg, system.read entryLoReg⟩

def putEntry (system : SystemControl) (entry : TlbEntry) : SystemControl :=
  (system.put entryHiReg entry.hi).put entryLoReg entry.lo

end SystemControl

end R3000

import R3000.FloatUnit
import R3000.Mmu
import R3000.Sequencer
import R3000.SystemControl

/-!
# The processor core

The state that instructions compute with: registers, sequencing, system control,
mapping hardware, the floating point unit, the coprocessor conditions, and the
memory that data accesses go to. Time and the contents of the caches are kept
outside of it.

Bits of the status register isolate the caches. The choice of the memory for
data is made when a program or the host writes that register, and holds until
the next such write or a reset.
-/
namespace R3000

/-- Where loads and stores go. -/
inductive DataSpace where
  | program
  | instructionCache
  | dataCache
  deriving DecidableEq, Repr

/-- The data memory that a status word selects. -/
def DataSpace.ofStatus (status : Word) : DataSpace :=
  if hasAny status Status.isc then
    if hasAny status Status.swc then .instructionCache else .dataCache
  else .program

structure Core where
  config : Config
  registers : Registers
  pc : Word
  sequencer : Sequencer
  system : SystemControl
  mmu : Mmu
  fpu : Option FloatUnit
  /-- The condition inputs of the coprocessors. -/
  conditions : Vector Bool 4
  space : DataSpace

namespace Core

def userMode (core : Core) : Bool := Status.userMode core.system.status

def unitUsable (core : Core) (unit : Nat) : Bool := Status.unitUsable core.system.status unit

def reg (core : Core) (reg : RegNum) : Word := core.registers.read reg

def setReg (core : Core) (reg : RegNum) (value : Word) : Core :=
  { core with registers := core.registers.write reg value }

/-! ### Sequencing -/

def branchTo (core : Core) (target : Word) : Core :=
  { core with sequencer := core.sequencer.branchTo target }

/-- A branch relative to its delay slot. A likely branch that is not taken skips the slot. -/
def branchIf (core : Core) (taken likely : Bool) (offset : Word) : Core :=
  if taken then core.branchTo (core.pc + 4 + offset)
  else if likely then { core with pc := core.pc + 4 }
  else core

/-- Go on to the next instruction. -/
def advance (core : Core) : Core :=
  { core with
    pc := core.sequencer.nextPc core.pc
    sequencer := core.sequencer.next }

/-- Continue at another address, and forget a branch that has not taken effect. -/
def setPc (core : Core) (pc : Word) : Core := { core with pc, sequencer := .initial }

/-! ### System control -/

/-- The note that a change of the status register leaves when it changes the mode. -/
def modeChange (before after : Word) : List Note :=
  if Status.userMode before = Status.userMode after then []
  else [.event (.privilegeChange (Status.userMode after))]

/-- Write the status register, with the effects that this has on the core. While an
exception is being entered the change of mode is not reported. -/
def writeStatus (core : Core) (value : Word) : Core × List Note :=
  let notes :=
    if core.sequencer.state = .exception then [] else modeChange core.system.status value
  ({ core with system := core.system.putStatus value, space := .ofStatus value }, notes)

/-- Write a system register. A number beyond the last register selects one by its low
bits, but has only the effect of storing. -/
def writeSystem (core : Core) (number : Nat) (value : Word) : Core × List Note :=
  if number = SystemControl.statusReg then core.writeStatus value
  else
    let reg := Registers.select number
    ({ core with system := core.system.write core.mmu.hasBuffer reg value }, [])

/-- Read a system register. Register 1 counts through the slots of the lookaside buffer. -/
def readSystem (core : Core) (random : Fin 64) (number : Nat) : Word :=
  if number = SystemControl.randomReg ∧ core.mmu.hasBuffer then BitVec.ofNat 32 random.val <<< 8
  else core.system.read (Registers.select number)

/-- Return to the mode before the last exception. -/
def restoreMode (core : Core) : Core × List Note :=
  let system := core.system.popMode
  ({ core with system }, modeChange core.system.status system.status)

/-! ### Inputs -/

/-- Drive an interrupt input. An input that is let through is reported when asserted. -/
def setInput (core : Core) (line : Nat) (asserted : Bool) : Core × List Note :=
  if 6 ≤ line then (core, [.message (.inputIgnored line)])
  else
    let bit := Cause.inputBit line
    let status := core.system.status
    if asserted then
      let notes :=
        if Status.interruptsEnabled status && hasAny status bit then
          [.event (.interrupt line asserted)]
        else []
      ({ core with system := core.system.putCause (core.system.cause ||| bit) }, notes)
    else
      ({ core with system := core.system.putCause (core.system.cause &&& ~~~bit) }, [])

def setCondition (core : Core) (unit : Nat) (condition : Bool) : Core :=
  { core with conditions := core.conditions.set (Fin.ofNat 4 unit) condition }

/-- The condition input of a coprocessor. -/
def condition (core : Core) (unit : Fin 4) : Bool := core.conditions[unit]

/-! ### The floating point unit -/

/-- Put back the unit after an operation and drive its interrupt input. -/
def updateUnit (core : Core) (unit : FloatUnit) (update : LineUpdate) : Core × List Note :=
  let core := { core with fpu := some unit }
  match update with
  | some level => core.setInput unit.irq level
  | none => (core, [])

end Core

end R3000

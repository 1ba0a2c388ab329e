import R3000.Reset

/-!
# Access by the host

What the host of a processor can read and change between two instructions.
Register numbers are taken as they come.
-/
namespace R3000.Cpu

/-! ### Reading -/

def gpr (cpu : Cpu) (number : Nat) : Word := cpu.core.registers.readNumbered number

def systemReg (cpu : Cpu) (number : Nat) : Word := cpu.core.readSystem cpu.random number

/-- A floating point register pair, if there is a unit. -/
def fpr (cpu : Cpu) (number : Nat) : Option (BitVec 64) :=
  cpu.core.fpu.map fun unit => unit.pair (Fin.ofNat 16 number)

def floatControl (cpu : Cpu) : Option Word := cpu.core.fpu.map (·.control31)

def buffer? (cpu : Cpu) : Option Tlb := cpu.core.mmu.buffer?

/-- The sizes of the instruction and the data cache. -/
def cacheSizes (cpu : Cpu) : Nat × Nat := (cpu.icache.size, cpu.dcache.size)

/-- What an address is translated to for the kernel, if anything. -/
def translate (cpu : Cpu) (address : Word) (intent : Intent) : Option Word :=
  cpu.core.translate address intent

/-! ### Changing -/

def setPc (cpu : Cpu) (pc : Word) : Cpu := { cpu with core := cpu.core.setPc pc }

def setGpr (cpu : Cpu) (number : Nat) (value : Word) : Cpu :=
  { cpu with
    core := { cpu.core with registers := cpu.core.registers.writeNumbered number value } }

def setFpr (cpu : Cpu) (number : Nat) (value : BitVec 64) : Cpu :=
  { cpu with
    core := { cpu.core with fpu := cpu.core.fpu.map (·.setPair (Fin.ofNat 16 number) value) } }

/-- Write a system register as a program would. -/
def setSystemReg (cpu : Cpu) (number : Nat) (value : Word) : Cpu × List Note :=
  cpu.onCore (cpu.core.writeSystem number value)

/-- Drive an interrupt input. -/
def setInput (cpu : Cpu) (line : Nat) (asserted : Bool) : Cpu × List Note :=
  cpu.onCore (cpu.core.setInput line asserted)

/-- Drive the condition input of a coprocessor; numbers count modulo four. -/
def setCondition (cpu : Cpu) (unit : Nat) (condition : Bool) : Cpu :=
  { cpu with core := cpu.core.setCondition unit condition }

end R3000.Cpu

import R3000.Cpu

/-!
# Construction and reset

A processor is built from its description in the reset state, with everything
else zero. A reset starts execution at the boot vector in kernel mode, with the
bootstrap handlers selected and no branch pending; the general registers, the
floating point unit, the entries of the lookaside buffer and the caches are left
alone. Parts with a lookaside buffer forget its search orders and restart the
random counter, and those that translate with it clear the shutdown bit.
-/
namespace R3000

/-- Where execution starts. -/
def resetVector : Word := 0xbfc00000

namespace SystemControl

/-- The bus registers of the R3041 after a reset. -/
def resetBusRegisters (system : SystemControl) : SystemControl :=
  ((((system.put busControlReg 0x20130b00).put cacheConfigReg 0x40000000).put portSizeReg 0).put
    countReg 0).put compareReg 0x00ffffff

end SystemControl

namespace Core

def build (config : Config) : Core where
  config
  registers := .initial
  pc := resetVector
  sequencer := .initial
  system := .initial
  mmu := .ofMapping config.mapping
  fpu := (config.fpu.filter FpuAttachment.isPresent).map (.ofAttachment config.arithmetic)
  conditions := Vector.replicate 4 false
  space := .program

/-- The system registers after a reset, once the status register is written. -/
def resetSystem (core : Core) : SystemControl :=
  let system := (core.system.putCause 0).put SystemControl.pridReg core.config.cpurev
  let system :=
    match core.mmu with
    | .tlb _ => system.putStatus (system.status &&& ~~~Status.ts)
    | .fixed | .bypass _ => system
  if core.config.model.hasBusRegisters then system.resetBusRegisters else system

def reset (core : Core) : Core × List Note :=
  let (core, notes) := (core.setPc resetVector).writeStatus (Status.bev ||| Status.ts)
  ({ core with
      system := core.resetSystem
      space := .program
      mmu := core.mmu.mapBuffer Tlb.resetOrders },
    notes ++ [.message (.reset core.config.model core.config.cpurev)])

end Core

namespace Cpu

def reset (cpu : Cpu) : Cpu × List Note :=
  let (core, notes) := cpu.core.reset
  let randomOrigin := if core.mmu.hasBuffer then cpu.cycles else cpu.randomOrigin
  ({ cpu with core, randomOrigin }, notes)

/-- A processor as described, after its first reset. -/
def build (config : Config) : Cpu × List Note :=
  reset {
    core := .build config
    icache := .ofSize config.icacheSize
    dcache := .ofSize config.dcacheSize
    cycles := 0
    randomOrigin := 0 }

end Cpu

end R3000

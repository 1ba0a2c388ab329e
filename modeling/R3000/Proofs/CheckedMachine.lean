import R3000.Proofs.CheckedCaches
import R3000.Proofs.CheckedIssue
import R3000.Proofs.CheckedSearch
import R3000.Proofs.Reachability

/-!
# The processor with checks

A machine is a processor whose clock is a word of 64 bits, whose search orders are rows of bytes
beside its core, and whose caches have a mask. Every operation of a host is done with checks.

Where nothing is done but to move words, to cut bits out of them at constant places, and to count
with wrapping, there is nothing to check, and the machine does it as the processor does: decoding,
branches, the mode stack, a reset. Every processor has a machine that represents it.
-/
namespace R3000.Strict

/-- The search orders stand in the rows; those in the core are as after a reset and not used. -/
structure Machine where
  core : Core
  rows : Rows
  icache : Cache
  dcache : Cache
  /-- Cycles since the machine was built. -/
  time : BitVec 64
  /-- The time from which the counter through the slots counts. -/
  start : BitVec 64

/-- The state after an operation, with the notes taken. -/
structure Outcome (β : Type) where
  machine : Machine
  bus : β
  notes : List Note

/-- The machine that represents a processor. -/
def Machine.of (cpu : Cpu) : Machine where
  core := cpu.core.forgetOrders
  rows := .of cpu.core.mmu
  icache := .of cpu.icache
  dcache := .of cpu.dcache
  time := BitVec.ofNat 64 cpu.cycles
  start := BitVec.ofNat 64 cpu.randomOrigin

def Outcome.of {β : Type} (outcome : R3000.Outcome β) : Outcome β :=
  ⟨.of outcome.cpu, outcome.bus, outcome.notes⟩

namespace Machine

/-- Translate an access of a program. -/
def access (machine : Machine) (address : Word) (intent : Intent) :
    Checked (Except Trap Word × Machine) :=
  match route machine.core.userMode address with
  | .unmapped physical => return (.ok physical, machine)
  | .refused => return (.error (.addressError address intent), machine)
  | .mapped =>
    match machine.core.mmu with
    | .fixed => return (.ok (Mmu.fixedAddress address), machine)
    | .bypass _ => return (.ok address, machine)
    | .tlb buffer => do
      let key := searchKey address machine.core.system.entryHi
      let (answer, rows) ← lookup buffer machine.rows key intent
      let searched := { machine with rows }
      match answer with
      | .hit frame => return (.ok ((address &&& ~~~pageMask) ||| frame), searched)
      | failure =>
        return (.error (.tlbFault address key intent (Mmu.faultKind address failure)), searched)

/-- Let time pass. -/
def tick (machine : Machine) (cycles : Nat) : Checked Machine :=
  return { machine with time := ← add machine.time (BitVec.ofNat 64 cycles) }

section

variable {β : Type} [Bus β]

omit [Bus β] in
def trap (machine : Machine) (bus : β) (trap : Trap) : Checked (Outcome β) := do
  let (core, notes) ← enter machine.core trap
  return ⟨{ machine with core }, bus, notes⟩

def readData (machine : Machine) (bus : β) (width : Width) (address : Word) :
    Checked (Except BusError (BitVec width.bits) × β) :=
  match machine.core.space with
  | .program => return Bus.read bus width address
  | .instructionCache => return (.ok (← machine.icache.read width address), bus)
  | .dataCache => return (.ok (← machine.dcache.read width address), bus)

def writeData (machine : Machine) (bus : β) (width : Width) (address : Word)
    (value mask : BitVec width.bits) : Checked (Except BusError Unit × Machine × β) :=
  match machine.core.space with
  | .program =>
    let (answer, bus) := Bus.write bus width address value mask
    return (answer, machine, bus)
  | .instructionCache => do
    let icache ← machine.icache.write width address value mask
    return (.ok (), { machine with icache }, bus)
  | .dataCache => do
    let dcache ← machine.dcache.write width address value mask
    return (.ok (), { machine with dcache }, bus)

/-- Read what a load asks for at a physical address, and put it into its register. -/
def bring (machine : Machine) (bus : β) (load : Load) (place : Word) : Checked (Outcome β) := do
  match ← machine.readData bus load.width place with
  | (.error reason, bus) => machine.trap bus (.loadFailed load.address reason)
  | (.ok value, bus) =>
    let core ← receive machine.core load.destination value
    return ⟨{ machine with core }, bus, []⟩

def load (machine : Machine) (bus : β) (load : Load) : Checked (Outcome β) := do
  if load.checked && !load.width.aligned load.address then
    machine.trap bus (.addressError load.address .read)
  else
    match ← machine.access load.address .read with
    | (.error trap, machine) => machine.trap bus trap
    | (.ok physical, machine) =>
      machine.bring bus load (if load.checked then physical else containingWord physical)

def store (machine : Machine) (bus : β) (store : Store) : Checked (Outcome β) := do
  if store.checked && !store.width.aligned store.address then
    machine.trap bus (.addressError store.address .write)
  else
    match ← machine.access store.address .write with
    | (.error trap, machine) => machine.trap bus trap
    | (.ok physical, machine) =>
      let physical := if store.checked then physical else containingWord physical
      match ← machine.writeData bus store.width physical store.value store.mask with
      | (.error reason, machine, bus) => machine.trap bus (.storeFailed store.address reason)
      | (.ok _, machine, bus) => return ⟨machine, bus, []⟩

/-- Execute an instruction word. The counter is only looked at by instructions that use it. -/
def execute (machine : Machine) (bus : β) (word : Word) : Checked (Outcome β) := do
  match ← issue machine.core (random machine.time machine.start) word with
  | .retire core notes extra => return ⟨← { machine with core }.tick extra, bus, notes⟩
  | .raise trap => machine.trap bus trap
  | .load load => machine.load bus load
  | .store store => machine.store bus store

def fetch (machine : Machine) (bus : β) : Checked (Except Trap Word × Machine × β) := do
  let address := machine.core.pc
  if !Width.word.aligned address then
    return (.error (.addressError address .fetch), machine, bus)
  else
    match ← machine.access address .fetch with
    | (.error trap, machine) => return (.error trap, machine, bus)
    | (.ok physical, machine) =>
      match Bus.read bus .word physical with
      | (.error reason, bus) => return (.error (.fetchFailed address reason), machine, bus)
      | (.ok word, bus) => return (.ok word, machine, bus)

def perform (machine : Machine) (bus : β) : Checked (Outcome β) := do
  match ← machine.fetch bus with
  | (.error trap, machine, bus) => machine.trap bus trap
  | (.ok word, machine, bus) =>
    if machine.core.system.interruptPending then machine.trap bus .interrupt
    else machine.execute bus word

/-- Run one instruction, or take one exception, and tell the cycles that it cost. -/
def step (machine : Machine) (bus : β) : Checked (BitVec 64 × Outcome β) := do
  let ticked ← machine.tick 1
  let outcome ← ticked.perform bus
  let cost ← subtract outcome.machine.time machine.time
  let advanced := { outcome.machine with core := outcome.machine.core.advance }
  return (cost, { outcome with machine := advanced })

end

/-- A reset forgets the search orders and starts the counter again, where there is a buffer. -/
def reset (machine : Machine) : Machine × List Note :=
  let (core, notes) := machine.core.reset
  if core.mmu.hasBuffer then
    ({ machine with core, rows := .initial, start := machine.time }, notes)
  else ({ machine with core }, notes)

/-- A machine as described, after its first reset. -/
def build (config : Config) : Machine × List Note :=
  reset {
    core := .build config
    rows := .initial
    icache := .ofSize config.icacheSize
    dcache := .ofSize config.dcacheSize
    time := 0
    start := 0 }

def operate {β : Type} [Bus β] (machine : Machine) (bus : β) (operation : Operation) :
    Checked (Outcome β) := do
  match operation with
  | .step => return (← machine.step bus).2
  | .execute word => machine.execute bus word
  | .reset =>
    let (machine, notes) := machine.reset
    return ⟨machine, bus, notes⟩
  | .setPc pc => return ⟨{ machine with core := machine.core.setPc pc }, bus, []⟩
  | .setGpr number value =>
    return ⟨{ machine with core := ← writeGpr machine.core number value }, bus, []⟩
  | .setFpr number value =>
    match machine.core.fpu with
    | none => return ⟨machine, bus, []⟩
    | some unit =>
      let unit := unit.setPair (← within 16 (number &&& 15)) value
      return ⟨{ machine with core := { machine.core with fpu := some unit } }, bus, []⟩
  | .setSystemReg number value =>
    let (core, notes) ← writeSystem machine.core number value
    return ⟨{ machine with core }, bus, notes⟩
  | .setInput line asserted =>
    let (core, notes) ← setInput machine.core line asserted
    return ⟨{ machine with core }, bus, notes⟩
  | .setCondition unit state =>
    return ⟨{ machine with core := ← setCondition machine.core unit state }, bus, []⟩

end Machine

end R3000.Strict

import R3000.CacheRam
import R3000.Execution.Issue

/-!
# The processor

A processor is a core with its two caches and a clock. It runs one instruction
at a time against the memory of its host: it fetches a word, takes an interrupt
if one is pending, else issues the instruction and makes the access it asks for.

An access that cannot be translated, or that the memory refuses, is a trap of
the instruction. Besides entering the exception it leaves its mark in the search
order of the lookaside buffer only.
-/
namespace R3000

structure Cpu where
  core : Core
  icache : CacheRam
  dcache : CacheRam
  /-- Cycles since the processor was built. -/
  cycles : Nat
  /-- The value of `cycles` from which register 1 of system control counts. -/
  randomOrigin : Nat

/-- The state after an operation on a processor and its memory, with the notes taken. -/
structure Outcome (β : Type) where
  cpu : Cpu
  bus : β
  notes : List Note

namespace Cpu

/-- The slot that a random write to the lookaside buffer takes: the 56 upper slots in turn,
from the highest downwards. -/
def random (cpu : Cpu) : Fin 64 :=
  ⟨63 - (cpu.cycles - cpu.randomOrigin) % 56, by omega⟩

def tick (cpu : Cpu) (cycles : Nat) : Cpu := { cpu with cycles := cpu.cycles + cycles }

/-- An operation of the core alone. -/
def onCore (cpu : Cpu) (result : Core × List Note) : Cpu × List Note :=
  ({ cpu with core := result.1 }, result.2)

section

variable {β : Type} [Bus β]

/-! ### Data accesses -/

def readData (cpu : Cpu) (bus : β) (width : Width) (address : Word) :
    Except BusError (BitVec width.bits) × β :=
  match cpu.core.space with
  | .program => Bus.read bus width address
  | .instructionCache => (.ok (cpu.icache.read width address), bus)
  | .dataCache => (.ok (cpu.dcache.read width address), bus)

def writeData (cpu : Cpu) (bus : β) (width : Width) (address : Word)
    (value mask : BitVec width.bits) : Except BusError Unit × Cpu × β :=
  match cpu.core.space with
  | .program =>
    let (answer, bus) := Bus.write bus width address value mask
    (answer, cpu, bus)
  | .instructionCache =>
    (.ok (), { cpu with icache := cpu.icache.write width address value mask }, bus)
  | .dataCache =>
    (.ok (), { cpu with dcache := cpu.dcache.write width address value mask }, bus)

/-! ### Instructions -/

omit [Bus β] in
/-- Leave the present instruction for the handler of a trap. -/
def trap (cpu : Cpu) (bus : β) (trap : Trap) : Outcome β :=
  let (core, notes) := cpu.core.enter trap
  ⟨{ cpu with core }, bus, notes⟩

def load (cpu : Cpu) (bus : β) (load : Load) : Outcome β :=
  if load.checked && !load.width.aligned load.address then
    cpu.trap bus (.addressError load.address .read)
  else
    match cpu.core.access load.address .read with
    | (.error trap, core) => { cpu with core }.trap bus trap
    | (.ok physical, core) =>
      let cpu := { cpu with core }
      let physical := if load.checked then physical else containingWord physical
      match cpu.readData bus load.width physical with
      | (.error reason, bus) => cpu.trap bus (.loadFailed load.address reason)
      | (.ok value, bus) => ⟨{ cpu with core := core.receive load.destination value }, bus, []⟩

def store (cpu : Cpu) (bus : β) (store : Store) : Outcome β :=
  if store.checked && !store.width.aligned store.address then
    cpu.trap bus (.addressError store.address .write)
  else
    match cpu.core.access store.address .write with
    | (.error trap, core) => { cpu with core }.trap bus trap
    | (.ok physical, core) =>
      let cpu := { cpu with core }
      let physical := if store.checked then physical else containingWord physical
      match cpu.writeData bus store.width physical store.value store.mask with
      | (.error reason, cpu, bus) => cpu.trap bus (.storeFailed store.address reason)
      | (.ok _, cpu, bus) => ⟨cpu, bus, []⟩

/-- Execute an instruction word, without fetching it and without going on to the next. -/
def execute (cpu : Cpu) (bus : β) (word : Word) : Outcome β :=
  match cpu.core.issue cpu.random word with
  | .retire core notes extra => ⟨{ cpu with core }.tick extra, bus, notes⟩
  | .raise trap => cpu.trap bus trap
  | .load load => cpu.load bus load
  | .store store => cpu.store bus store

/-- Fetch an instruction word. Fetches always go to the memory of the host. -/
def fetch (cpu : Cpu) (bus : β) : Except Trap Word × Cpu × β :=
  let address := cpu.core.pc
  if !Width.word.aligned address then (.error (.addressError address .fetch), cpu, bus)
  else
    match cpu.core.access address .fetch with
    | (.error trap, core) => (.error trap, { cpu with core }, bus)
    | (.ok physical, core) =>
      let cpu := { cpu with core }
      match Bus.read bus .word physical with
      | (.error reason, bus) => (.error (.fetchFailed address reason), cpu, bus)
      | (.ok word, bus) => (.ok word, cpu, bus)

/-- Fetch and execute, or take an exception instead. -/
def perform (cpu : Cpu) (bus : β) : Outcome β :=
  match cpu.fetch bus with
  | (.error trap, cpu, bus) => cpu.trap bus trap
  | (.ok word, cpu, bus) =>
    if cpu.core.system.interruptPending then cpu.trap bus .interrupt
    else cpu.execute bus word

omit [Bus β] in
/-- Go on to the next instruction. -/
def advance (outcome : Outcome β) : Outcome β :=
  { outcome with cpu := { outcome.cpu with core := outcome.cpu.core.advance } }

/-- Run one instruction, or take one exception. -/
def step (cpu : Cpu) (bus : β) : Outcome β := advance ((cpu.tick 1).perform bus)

end

end Cpu

end R3000

import R3000.Proofs.Installed
import R3000.Proofs.RandomSlots
import R3000.Proofs.SearchHistory

/-!
# Warm resets

A reset forgets the sequencing, and sets up again what selects mode, memory and search order. All
else it leaves as it finds it. What it writes is fixed by what is built into the processor, so it
does not depend on the history, a second reset finds everything as it would leave it, and from the
reset on the random counter depends on the time only.
-/
namespace R3000

/-! ### The registers that a reset writes -/

namespace SystemControl

def busRegs : List RegNum := [busControlReg, cacheConfigReg, countReg, portSizeReg, compareReg]

/-- What a reset writes to a bus register. -/
def busReset? (reg : RegNum) : Option Word :=
  if reg = compareReg then some 0x00ffffff
  else if reg = countReg then some 0
  else if reg = portSizeReg then some 0
  else if reg = cacheConfigReg then some 0x40000000
  else if reg = busControlReg then some 0x20130b00
  else none

theorem read_resetBusRegisters (system : SystemControl) (reg : RegNum) :
    system.resetBusRegisters.read reg = (busReset? reg).getD (system.read reg) := by
  simp only [resetBusRegisters, read_put, busReset?]
  repeat' split
  all_goals rfl

theorem busReset?_eq_none_iff (reg : RegNum) : busReset? reg = none ↔ reg ∉ busRegs := by
  revert reg
  decide

theorem eq_of_read {system other : SystemControl} (same : ∀ reg, system.read reg = other.read reg) :
    system = other := by
  cases system
  cases other
  congr 1
  apply Vector.ext
  intro index bound
  exact same ⟨index, bound⟩

end SystemControl

namespace Core

open SystemControl

/-- The status register after a reset. -/
def resetStatus (core : Core) : Word :=
  if core.mmu.kind = .tlb then Status.bev else Status.bev ||| Status.ts

/-- What a reset writes to a system register. -/
def resetValue? (core : Core) (reg : RegNum) : Option Word :=
  if reg = statusReg then some core.resetStatus
  else if reg = pridReg then some core.config.cpurev
  else if reg = causeReg then some 0
  else if core.config.model.hasBusRegisters then busReset? reg
  else none

/-- The system registers that a reset writes. -/
def resetRegs (core : Core) : List RegNum :=
  [statusReg, pridReg, causeReg] ++ if core.config.model.hasBusRegisters then busRegs else []

theorem resetValue?_eq_none_iff (core : Core) (reg : RegNum) :
    core.resetValue? reg = none ↔ reg ∉ core.resetRegs := by
  simp only [resetValue?, resetRegs]
  repeat' split
  all_goals simp_all [busReset?_eq_none_iff]

theorem resetValue?_of_installed {core other : Core} (described : core.config = other.config)
    (kind : core.mmu.kind = other.mmu.kind) : core.resetValue? = other.resetValue? := by
  funext reg
  simp only [resetValue?, resetStatus, described, kind]

/-- The system registers after a reset, but for those of the bus. -/
def resetCommon (core : Core) : SystemControl :=
  let system := ((core.system.putStatus (Status.bev ||| Status.ts)).putCause 0).put pridReg
    core.config.cpurev
  match core.mmu with
  | .tlb _ => system.putStatus (system.status &&& ~~~Status.ts)
  | .fixed | .bypass _ => system

theorem read_resetCommon (core : Core) (reg : RegNum) :
    core.resetCommon.read reg =
      if reg = statusReg then core.resetStatus
      else if reg = pridReg then core.config.cpurev
      else if reg = causeReg then 0
      else core.system.read reg := by
  have status : statusReg ≠ pridReg ∧ statusReg ≠ causeReg := by decide
  have cleared : (Status.bev ||| Status.ts) &&& ~~~Status.ts = Status.bev := by decide
  simp only [resetCommon, resetStatus]
  cases core.mmu with
  | tlb buffer =>
    -- The status is written twice: here the bit that says that there is no buffer goes again.
    simp only [putStatus, putCause, SystemControl.status, read_put, Mmu.kind, status, cleared,
      if_true, if_false]
    by_cases booted : reg = statusReg
    · simp only [booted, if_true]
    · simp only [booted, if_false]
  | fixed | bypass buffer =>
    simp only [putStatus, putCause, read_put, Mmu.kind, reduceCtorEq, if_false]
    by_cases booted : reg = statusReg
    · simp only [booted, status, if_true, if_false]
    · simp only [booted, if_false]

theorem read_reset (core : Core) (reg : RegNum) :
    core.reset.1.system.read reg = (core.resetValue? reg).getD (core.system.read reg) := by
  -- The registers of the bus come last.
  have last : core.reset.1.system.read reg =
      (if core.config.model.hasBusRegisters then busReset? reg else none).getD
        (core.resetCommon.read reg) := by
    have system : core.reset.1.system =
        if core.config.model.hasBusRegisters then core.resetCommon.resetBusRegisters
        else core.resetCommon := rfl
    rw [system]
    split
    · exact read_resetBusRegisters _ _
    · rfl
  -- None of them is one of the other three.
  have apart (other : reg = statusReg ∨ reg = pridReg ∨ reg = causeReg) : busReset? reg = none := by
    rcases other with rfl | rfl | rfl <;> decide
  rw [last, read_resetCommon]
  simp only [resetValue?]
  by_cases booted : reg = statusReg
  · rw [apart (.inl booted), ite_self, if_pos booted, if_pos booted]
    rfl
  rw [if_neg booted, if_neg booted]
  by_cases identified : reg = pridReg
  · rw [apart (.inr (.inl identified)), ite_self, if_pos identified, if_pos identified]
    rfl
  rw [if_neg identified, if_neg identified]
  by_cases caused : reg = causeReg
  · rw [apart (.inr (.inr caused)), ite_self, if_pos caused, if_pos caused]
    rfl
  · rw [if_neg caused, if_neg caused]

/-- A second reset writes again what is there already. -/
theorem system_reset_reset (core : Core) : core.reset.1.reset.1.system = core.reset.1.system := by
  apply eq_of_read
  intro reg
  have kind : core.reset.1.mmu.kind = core.mmu.kind := Mmu.kind_mapBuffer _ _
  have same : core.reset.1.resetValue? = core.resetValue? := resetValue?_of_installed rfl kind
  rw [read_reset, same, read_reset]
  cases core.resetValue? reg <;> rfl

theorem mmu_reset_reset (core : Core) : core.reset.1.reset.1.mmu = core.reset.1.mmu := by
  change (core.mmu.mapBuffer Tlb.resetOrders).mapBuffer Tlb.resetOrders =
    core.mmu.mapBuffer Tlb.resetOrders
  cases core.mmu <;> rfl

theorem reset_reset (core : Core) : core.reset.1.reset.1 = core.reset.1 := by
  have again (core : Core) : core.reset.1 =
      { core with
        pc := resetVector
        sequencer := .initial
        system := core.reset.1.system
        mmu := core.reset.1.mmu
        space := .program } := rfl
  rw [again core.reset.1, system_reset_reset, mmu_reset_reset]
  exact (again core).symm

end Core

namespace Cpu

theorem reset_reset (cpu : Cpu) : cpu.reset.1.reset.1 = cpu.reset.1 := by
  simp only [reset, Core.reset_reset]
  split <;> rfl

/-! ### The counter after a reset -/

section

variable {β : Type} [Bus β]

/-- Only a reset starts the counter. -/
theorem randomOrigin_operate (cpu : Cpu) (bus : β) {operation : Operation}
    (running : operation ≠ .reset) :
    (cpu.operate bus operation).cpu.randomOrigin = cpu.randomOrigin := by
  have going : (cpu.during operation).randomOrigin = cpu.randomOrigin := by
    cases operation <;> rfl
  rcases cpu.operate_courses bus operation with ⟨word, start, memory, ran⟩ |
    ⟨trap, core, memory, left⟩ | host
  · rw [ran.closes.clock.2, randomOrigin_execute, ran.begins, going]
  · rw [left.closes.clock.2]
    exact going
  · cases operation with
    | step | execute word => cases host
    | reset => exact absurd rfl running
    | _ => rfl

end

/-- The counter shows how long ago it was started, until the next reset. -/
theorem Leads.random_of_running {start cpu : Cpu} (run : Leads (· ≠ .reset) start cpu) :
    cpu.random = slotAfter (cpu.cycles - start.randomOrigin) := by
  have origin : cpu.randomOrigin = start.randomOrigin := by
    apply run.keeps (P := fun cpu => cpu.randomOrigin = start.randomOrigin)
    · intro β _ cpu bus operation running same
      exact (randomOrigin_operate cpu bus running).trans same
    · rfl
  rw [random_eq, origin]

/-- Register 1 shows the counter, on parts with a lookaside buffer. -/
theorem systemReg_of_random {cpu other : Cpu} (buffered : cpu.core.mmu.hasBuffer = true)
    (otherBuffered : other.core.mmu.hasBuffer = true) (same : cpu.random = other.random) :
    cpu.systemReg 1 = other.systemReg 1 := by
  have counts : (1 : Nat) = SystemControl.randomReg := rfl
  simp only [systemReg, Core.readSystem, counts, buffered, otherBuffered, and_self, if_true, same]

theorem Leads.hasBuffer {allowed : Operation → Prop} {start cpu : Cpu}
    (run : Leads allowed start cpu) (buffered : start.core.mmu.hasBuffer = true) :
    cpu.core.mmu.hasBuffer = true := by
  apply run.keeps (P := fun cpu => cpu.core.mmu.hasBuffer = true)
  · intro β _ cpu bus operation _ before
    exact (hasBuffer_operate cpu bus operation).trans before
  · exact buffered

theorem random_after_reset {cpu later : Cpu} (buffered : cpu.core.mmu.hasBuffer = true)
    (run : Leads (· ≠ .reset) cpu.reset.1 later) :
    later.core.mmu.hasBuffer = true ∧ later.random = slotAfter (later.cycles - cpu.cycles) := by
  have still : cpu.reset.1.core.mmu.hasBuffer = true :=
    (hasBuffer_operate cpu (Ram.zeroed 0 0 .big) .reset).trans buffered
  have started : cpu.reset.1.randomOrigin = cpu.cycles := if_pos still
  refine ⟨run.hasBuffer still, ?_⟩
  rw [run.random_of_running, started]

theorem random_tick_build (config : Config) (cycles : Nat) :
    ((Cpu.build config).1.tick cycles).random = slotAfter cycles := by
  have origin : (Cpu.build config).1.randomOrigin = 0 := ite_self 0
  have elapsed : (Cpu.build config).1.cycles = 0 := rfl
  rw [random_eq]
  simp only [tick, origin, elapsed, Nat.zero_add, Nat.sub_zero]

/-! ### Resets after any history -/

/-- The processor starts as `fresh` does. -/
structure StartsAs (cpu fresh : Cpu) : Prop where
  pc : cpu.core.pc = 0xbfc00000
  sequencer : cpu.core.sequencer = .initial
  system : ∀ reg ∈ fresh.core.resetRegs, cpu.core.system.read reg = fresh.core.system.read reg
  space : cpu.core.space = fresh.core.space
  orders : ∀ intent, cpu.core.mmu.order? intent = fresh.core.mmu.order? intent

/-- The processor keeps all that a reset does not set up. -/
structure KeepsRest (before after : Cpu) : Prop where
  config : after.core.config = before.core.config
  registers : after.core.registers = before.core.registers
  system : ∀ reg ∉ before.core.resetRegs,
    after.core.system.read reg = before.core.system.read reg
  entries : after.core.mmu.entries? = before.core.mmu.entries?
  fpu : after.core.fpu = before.core.fpu
  conditions : after.core.conditions = before.core.conditions
  icache : after.icache = before.icache
  dcache : after.dcache = before.dcache
  cycles : after.cycles = before.cycles

theorem keepsRest_reset (cpu : Cpu) : cpu.KeepsRest cpu.reset.1 where
  config := rfl
  registers := rfl
  system := by
    intro reg spared
    change cpu.core.reset.1.system.read reg = cpu.core.system.read reg
    rw [Core.read_reset, (cpu.core.resetValue?_eq_none_iff reg).mpr spared]
    rfl
  entries := Mmu.entries?_forgetOrders _
  fpu := rfl
  conditions := rfl
  icache := rfl
  dcache := rfl
  cycles := rfl

/-- Processors with the same things built in start alike after a reset. -/
theorem startsAs_reset {cpu other : Cpu} (described : cpu.core.config = other.core.config)
    (kind : cpu.core.mmu.kind = other.core.mmu.kind) : cpu.reset.1.StartsAs other.reset.1 where
  pc := rfl
  sequencer := rfl
  system := by
    intro reg written
    change cpu.core.reset.1.system.read reg = other.core.reset.1.system.read reg
    -- The register is one of those that a reset writes, so what was in it before is lost.
    have present : other.core.resetValue? reg ≠ none := fun absent =>
      (other.core.resetValue?_eq_none_iff reg).mp absent written
    obtain ⟨value, value_eq⟩ := Option.ne_none_iff_exists'.mp present
    rw [Core.read_reset, Core.read_reset, Core.resetValue?_of_installed described kind, value_eq]
    rfl
  space := rfl
  orders := by
    intro intent
    change (cpu.core.mmu.mapBuffer Tlb.resetOrders).order? intent =
      (other.core.mmu.mapBuffer Tlb.resetOrders).order? intent
    -- Hardware of two kinds is excluded; on one kind the orders do not depend on the old ones.
    cases own : cpu.core.mmu <;> cases others : other.core.mmu <;>
      simp_all [Mmu.kind, Mmu.mapBuffer, Mmu.order?, Mmu.buffer?]

/-- A reset forgets the sequencing and nothing else, whatever has happened before. The processor
starts as a new one of its description, and keeps all the rest. With a lookaside buffer the random
counter shows from then on what it shows in a new processor after as many cycles, and so the same as
in any other processor that was reset that long ago. A second reset changes nothing. -/
theorem reset_starts_afresh {config : Config} {cpu : Cpu}
    (history : Leads (fun _ => True) (Cpu.build config).1 cpu) :
    cpu.reset.1.StartsAs (Cpu.build config).1 ∧ cpu.KeepsRest cpu.reset.1 ∧
      (config.mapping ≠ .fixed →
        (∀ later, Leads (· ≠ .reset) cpu.reset.1 later →
          later.systemReg 1 =
            ((Cpu.build config).1.tick (later.cycles - cpu.cycles)).systemReg 1) ∧
        ∀ (otherConfig : Config) (other : Cpu), otherConfig.mapping ≠ .fixed →
          Leads (fun _ => True) (Cpu.build otherConfig).1 other →
          ∀ later otherLater, Leads (· ≠ .reset) cpu.reset.1 later →
            Leads (· ≠ .reset) other.reset.1 otherLater →
            later.cycles - cpu.cycles = otherLater.cycles - other.cycles →
              later.systemReg 1 = otherLater.systemReg 1) ∧
      cpu.reset.1.reset.1 = cpu.reset.1 := by
  have buffered {config : Config} {cpu : Cpu} (mapped : config.mapping ≠ .fixed)
      (history : Leads (fun _ => True) (Cpu.build config).1 cpu) :
      cpu.core.mmu.hasBuffer = true := by
    rw [Mmu.hasBuffer_iff_kind, history.installed.2]
    exact mapped
  obtain ⟨described, kind⟩ := history.installed
  refine ⟨?_, cpu.keepsRest_reset, ?_, cpu.reset_reset⟩
  · exact startsAs_reset described (kind.trans (Mmu.kind_ofMapping config.mapping).symm)
  · intro mapped
    have fresh (cycles : Nat) : ((Cpu.build config).1.tick cycles).core.mmu.hasBuffer = true := by
      have new : (Cpu.build config).1.core.mmu.hasBuffer = true := buffered mapped .refl
      exact new
    constructor
    · intro later run
      obtain ⟨shown, random⟩ := random_after_reset (buffered mapped history) run
      apply systemReg_of_random shown (fresh _)
      rw [random, random_tick_build]
    · intro otherConfig other otherMapped otherHistory later otherLater run otherRun together
      obtain ⟨shown, random⟩ := random_after_reset (buffered mapped history) run
      obtain ⟨otherShown, otherRandom⟩ :=
        random_after_reset (buffered otherMapped otherHistory) otherRun
      apply systemReg_of_random shown otherShown
      rw [random, otherRandom, together]

/-- A part with both bus registers and a lookaside buffer. -/
def mapped3041 : Config := { Config.ofModel .r3041 with mapping := .tlb }

/-- A memory that shows the word of a load at every address. -/
def loads : CacheRam := ⟨#[0x8c, 0x09, 0x10, 0x00]⟩

/-- A host has changed bus, mode and data memory, stored an entry for the second page, loaded by it,
and stopped the processor at a jump. -/
def interrupted : Cpu :=
  (Cpu.build mapped3041).1.operateAll loads
    [.setSystemReg 10 0x1000, .setSystemReg 2 0x2600, .setSystemReg 0 0x500, .execute 0x42000002,
      .setSystemReg 9 77, .setSystemReg 4 0x200000, .step, .step, .setGpr 8 5,
      .setSystemReg 12 0x30002, .execute 0x08000040]

/-- A reset of it drops the jump, the isolation, the search order and the count. The register, the
entry and the context stay. Two steps later the random counter shows what it shows in a new
processor after two cycles. -/
theorem reset_starts_afresh_interrupted :
    interrupted.core.sequencer.state = .branch ∧ interrupted.reset.1.core.sequencer = .initial ∧
      interrupted.core.space = .instructionCache ∧ interrupted.reset.1.core.space = .program ∧
      interrupted.core.mmu.order? .read ≠ some .initial ∧
      interrupted.reset.1.core.mmu.order? .read = some .initial ∧
      interrupted.reset.1.core.mmu.entries? = interrupted.core.mmu.entries? ∧
      interrupted.reset.1.core.system.read SystemControl.countReg = 0 ∧
      interrupted.reset.1.core.system.read SystemControl.contextReg = 0x200000 ∧
      interrupted.reset.1.core.reg 8 = 5 ∧
      (interrupted.reset.1.operateAll loads [.step, .step]).systemReg 1 = 0x3d00 ∧
      interrupted.reset.1.reset.1 = interrupted.reset.1 := by
  have history : Leads (fun _ => True) (Cpu.build mapped3041).1 interrupted :=
    Leads.refl.operateAll loads fun _ _ => trivial
  have running : Leads (· ≠ .reset) interrupted.reset.1
      (interrupted.reset.1.operateAll loads [.step, .step]) :=
    Leads.refl.operateAll loads (by decide)
  obtain ⟨starts, keeps, counter, again⟩ := reset_starts_afresh history
  refine ⟨by decide +kernel, starts.sequencer, by decide +kernel, starts.space, by decide +kernel,
    ?_, keeps.entries, ?_, ?_, ?_, ?_, again⟩
  · exact (starts.orders .read).trans (by decide +kernel)
  · exact (starts.system SystemControl.countReg (by decide)).trans (by decide +kernel)
  · exact (keeps.system SystemControl.contextReg (by decide)).trans (by decide +kernel)
  · have kept : interrupted.reset.1.core.reg 8 = interrupted.core.reg 8 :=
      congrArg (·.read 8) keeps.registers
    exact kept.trans (by decide +kernel)
  · exact ((counter (by decide)).1 _ running).trans (by decide +kernel)

end Cpu

end R3000

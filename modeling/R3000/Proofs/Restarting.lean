import R3000.Proofs.Entering
import R3000.Proofs.Trapping
import R3000.Ram
import R3000.Reset

/-!
# Restarting an instruction

An instruction that is left for an exception can be executed again, because it has done
nothing: every trap is raised before the first write of its instruction. A store that needs
the old value of a word is no exception, since its memory merges the value itself and refuses
the access as a whole.
-/
namespace R3000

/-! ### Memories that fail cleanly -/

/-- Neither reading nor a refused write changes the memory. -/
structure Bus.FailsCleanly {β : Type} [Bus β] (bus : β) : Prop where
  readKeeps : ∀ width address, (Bus.read bus width address).2 = bus
  refusalKeeps : ∀ {width address} {value mask : BitVec width.bits} {reason},
    (Bus.write bus width address value mask).1 = .error reason →
      (Bus.write bus width address value mask).2 = bus

/-- Whatever faults are injected, a write is checked before its first byte is stored. -/
theorem Ram.failsCleanly (ram : Ram) : Bus.FailsCleanly ram where
  readKeeps := fun _ _ => rfl
  refusalKeeps := by
    intro width address value mask reason refused
    change (ram.write width address value mask).1 = .error reason at refused
    change (ram.write width address value mask).2 = ram
    -- Once the place is found nothing can refuse the write any more.
    simp only [Ram.write] at refused ⊢
    split
    · rfl
    next start placed =>
      rw [placed] at refused
      cases refused

namespace Cpu

section

variable {β : Type} [Bus β] {cpu : Cpu} {bus : β}

theorem bus_readData (cpu : Cpu) (clean : Bus.FailsCleanly bus) (width : Width) (place : Word) :
    (cpu.readData bus width place).2 = bus := by
  simp only [readData]
  split
  · exact clean.readKeeps _ _
  · rfl
  · rfl

theorem bus_writeData_of_error (clean : Bus.FailsCleanly bus) {width : Width} {place : Word}
    {value mask : BitVec width.bits} {reason : BusError}
    (refused : (cpu.writeData bus width place value mask).1 = .error reason) :
    (cpu.writeData bus width place value mask).2.2 = bus := by
  simp only [writeData] at refused ⊢
  split
  next space =>
    rw [space] at refused
    exact clean.refusalKeeps refused
  · rfl
  · rfl

/-- Loads do not change the memory, whether they bring a value or not. -/
theorem bus_load (clean : Bus.FailsCleanly bus) (load : Load) :
    (cpu.load bus load).bus = bus := by
  rw [load_eq]
  cases cpu.core.place load.demand with
  | error trap => rfl
  | ok place =>
    have kept := bus_readData cpu clean load.width place
    simp only
    split <;> exact kept

theorem bus_store_of_trap (clean : Bus.FailsCleanly bus) {store : Store} {trap : Trap}
    (raised : cpu.storeTrap bus store = some trap) : (cpu.store bus store).bus = bus := by
  simp only [storeTrap] at raised
  rw [store_eq]
  cases placed : cpu.core.place store.demand with
  | error reason => rfl
  | ok place =>
    simp only [placed] at raised
    split at raised <;> cases raised
    next refused =>
      -- Of the traps of a store, this is the only one after a call on the memory.
      simp only [refused]
      exact bus_writeData_of_error clean refused

/-- A memory that fails cleanly is as before when the instruction raises a trap. -/
theorem bus_execute_of_trap (clean : Bus.FailsCleanly bus) {word : Word} {trap : Trap}
    (raised : cpu.executeTrap bus word = some trap) : (cpu.execute bus word).bus = bus := by
  simp only [executeTrap] at raised
  simp only [execute]
  split
  next issued => simp [issued] at raised
  · rfl
  · exact bus_load clean _
  next issued =>
    simp only [issued] at raised
    exact bus_store_of_trap clean raised

/-- Only an access that the memory refused was translated before its trap. -/
theorem exception_of_refused {word : Word} {trap : Trap}
    (raised : cpu.executeTrap bus word = some trap) :
    trap.refused = none ∨ trap.exception = .busData := by
  rcases executeTrap_cases raised with own | refused | ⟨demand, unplaced⟩
  · exact .inl (Trap.refused_of_isOwn own)
  · exact .inr refused
  · exact .inl (Core.refused_of_place unplaced)

end

/-! ### The state at the handler -/

/-- The instruction that `exception` interrupted on the way from `before` to `after` has left
no effect: it can be executed again as if for the first time. -/
structure Restartable (before : Cpu) (exception : Exception) (after : Cpu) : Prop where
  registers : after.core.registers = before.core.registers
  unit : after.core.fpu = before.core.fpu
  conditions : after.core.conditions = before.core.conditions
  space : after.core.space = before.core.space
  mapping : after.core.mmu.forgetOrders = before.core.mmu.forgetOrders
  entries : after.core.mmu.entries? = before.core.mmu.entries?
  /-- The search orders as well, unless the memory refused an access that was translated. -/
  orders : exception ≠ .busData → after.core.mmu = before.core.mmu
  icache : after.icache = before.icache
  dcache : after.dcache = before.dcache
  cycles : after.cycles = before.cycles
  randomOrigin : after.randomOrigin = before.randomOrigin
  status : after.core.system.status &&& ~~~0x3f = before.core.system.status &&& ~~~0x3f
  system : ∀ reg ∉ [SystemControl.statusReg, SystemControl.causeReg, SystemControl.epcReg],
    reg ∉ exception.recorded → after.core.system.read reg = before.core.system.read reg

theorem restartable_of_marked {β : Type} (cpu : Cpu) (bus : β) {trap : Trap}
    (refusal : trap.refused = none ∨ trap.exception = .busData) :
    cpu.Restartable trap.exception
      ({ cpu with core := cpu.core.marked trap }.trap bus trap).cpu := by
  have same := Core.forgetOrders_marked cpu.core trap
  have mapping := Core.mapping_of_forgetOrders same
  have entries := Core.entries?_of_forgetOrders same
  have entered : ({ cpu with core := cpu.core.marked trap }.trap bus trap).cpu =
      { cpu with core := { (cpu.core.enter trap).1 with mmu := (cpu.core.marked trap).mmu } } := by
    rw [← Core.enter_of_forgetOrders same]
    rfl
  rw [entered]
  constructor
  case mapping => exact mapping
  case entries => exact entries
  case orders =>
    -- Without a refusal no access was translated, so no order has moved either.
    intro noRefusal
    rcases refusal with unrefused | refused
    · rw [Core.marked_of_not_refused unrefused]
    · exact absurd refused noRefusal
  case status => exact Core.status_enter_outside cpu.core trap
  case system =>
    intro reg kept unrecorded
    exact Core.read_enter cpu.core trap kept unrecorded
  all_goals rfl

/-- An instruction that enters an exception has no partial effect, on any memory with
injected faults: of the processor and its memory nothing has changed but what entering the
handler writes. -/
theorem execute_restartable (cpu : Cpu) (ram : Ram) (word : Word)
    (interrupted : entered (cpu.execute ram word).notes ≠ []) :
    ∃ exception, entered (cpu.execute ram word).notes = [exception] ∧
      (cpu.execute ram word).bus = ram ∧
        cpu.Restartable exception (cpu.execute ram word).cpu := by
  rw [entered_execute] at interrupted ⊢
  cases raised : cpu.executeTrap ram word with
  | none => simp [raised] at interrupted
  | some trap =>
    obtain ⟨memory, trapped⟩ := execute_of_trap raised
    have whole := bus_execute_of_trap ram.failsCleanly raised
    refine ⟨trap.exception, rfl, whole, ?_⟩
    rw [trapped]
    exact restartable_of_marked cpu memory (exception_of_refused raised)

/-- A processor that maps the second page of user space to the third frame. -/
def withMappedPage : Cpu :=
  let cpu := (Cpu.build (.ofModel .r3000A)).1
  { cpu with core := { cpu.core with mmu := .tlb (Tlb.initial.setEntry 5 ⟨0x1000, 0x2600⟩) } }

/-- Two words in that frame, the first of which refuses every access. -/
def faultyFrame : Ram :=
  { base := 0x2000, order := .big, faults := [⟨0x2000, 0x2004⟩], data := Array.replicate 8 0xff }

/-- A store to the refusing word is translated, and so moves a search order, but nothing else. -/
theorem execute_restartable_refused_store :
    entered (withMappedPage.execute faultyFrame 0xac011000).notes ≠ [] ∧
      (withMappedPage.execute faultyFrame 0xac011000).cpu.core.mmu ≠ withMappedPage.core.mmu ∧
        withMappedPage.Restartable .busData
          (withMappedPage.execute faultyFrame 0xac011000).cpu := by
  have reported : entered (withMappedPage.execute faultyFrame 0xac011000).notes = [.busData] := by
    decide +kernel
  have interrupted : entered (withMappedPage.execute faultyFrame 0xac011000).notes ≠ [] := by
    rw [reported]
    exact List.cons_ne_nil _ _
  obtain ⟨exception, only, -, restartable⟩ :=
    execute_restartable withMappedPage faultyFrame 0xac011000 interrupted
  have same : exception = .busData := (List.singleton_inj.mp (reported.symm.trans only)).symm
  subst same
  exact ⟨interrupted, by decide +kernel, restartable⟩

end Cpu

end R3000

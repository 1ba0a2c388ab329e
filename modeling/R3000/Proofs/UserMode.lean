import R3000.Proofs.Accesses
import R3000.Proofs.ModeStack
import R3000.Ram
import R3000.Host

/-!
# Programs in user mode

A program in user mode that may not use coprocessor 0 is confined. A step of it either goes
on in user mode and has changed nothing of the protected state but the interrupt input of the
floating point unit, or it was left for the kernel, which finds what it needs to know about
the reason. In both cases the program has accessed memory through user space only.
-/
namespace R3000

namespace Core

/-! ### Protected state -/

/-- The protected state after an instruction of a confined program: all of it is as before,
but for the interrupt input of a floating point unit that the program may use. -/
structure Protected (before after : Core) : Prop where
  status : after.system.status = before.system.status
  system : ∀ reg ≠ SystemControl.causeReg, after.system.read reg = before.system.read reg
  cause : after.system.cause = before.system.cause ∨
    ∃ unit, before.fpu = some unit ∧ hasAny before.system.status 0x20000000 = true ∧
      after.system.cause &&& ~~~Cause.inputBit unit.irq =
        before.system.cause &&& ~~~Cause.inputBit unit.irq
  entries : after.mmu.entries? = before.mmu.entries?

theorem protected_of_same {before after : Core} (system : after.system = before.system)
    (entries : after.mmu.entries? = before.mmu.entries?) : Protected before after where
  status := by rw [system]
  system := by
    intro reg _
    rw [system]
  cause := by
    left
    rw [system]
  entries := entries

theorem Protected.of_forgetOrders {before core after : Core} (kept : Protected before after)
    (same : core.forgetOrders = before.forgetOrders) : Protected core after := by
  have entries := entries?_of_forgetOrders same
  have parts := eq_of_forgetOrders same
  constructor
  case status =>
    rw [parts]
    exact kept.status
  case system =>
    rw [parts]
    exact kept.system
  case cause =>
    rw [parts]
    exact kept.cause
  case entries => rw [entries, kept.entries]

/-! ### Instructions that complete -/

/-- Putting back the floating point unit drives its own input at most. -/
theorem protected_updateUnit {core : Core} {unit next : FloatUnit} (update : LineUpdate)
    (present : core.fpu = some unit) (usable : core.unitUsable 1 = true)
    (sameLine : next.irq = unit.irq) : Protected core (core.updateUnit next update).1 := by
  cases update with
  | none => exact protected_of_same rfl rfl
  | some level =>
    obtain ⟨others, input⟩ := system_setInput { core with fpu := some next } next.irq level
    rw [sameLine] at input
    constructor
    case status => exact others SystemControl.statusReg (by decide)
    case system => exact others
    case cause => exact .inr ⟨unit, present, usable, by simpa [updateUnit, sameLine] using input⟩
    case entries =>
      have sameMmu := mmu_updateUnit core next (some level)
      rw [sameMmu]

/-- A confined program completes no system control instruction, so what it completes leaves
the protected state alone. -/
theorem Completes.protected {core next : Core} {random : Fin 64} {word : Word} {instr : Instr}
    {notes : List Note} (completes : core.Completes random word instr next notes)
    (user : core.userMode = true) (denied : core.unitUsable 0 = false) :
    Protected core next := by
  cases completes with
  | program registers pc sequencer silent => exact protected_of_same rfl rfl
  | unit update prior usable present sameLine settled routine =>
    exact protected_updateUnit update present usable sameLine
  | system decoded permitted issued =>
    -- The program is neither in kernel mode nor allowed to use coprocessor 0.
    rcases permitted with kernel | allowed
    · simp [user] at kernel
    · simp [denied] at allowed

theorem protected_receive (core : Core) (destination : Destination) {width : Width}
    (value : BitVec width.bits) : Protected core (core.receive destination value) := by
  cases destination <;> exact protected_of_same rfl rfl

end Core

namespace Cpu

variable {β : Type} [Bus β]

/-- An instruction of a confined program that raises nothing leaves the protected state
alone. -/
theorem execute_protected {cpu : Cpu} {bus : β} {word : Word}
    (silent : cpu.executeTrap bus word = none) (user : cpu.core.userMode = true)
    (denied : cpu.core.unitUsable 0 = false) :
    Core.Protected cpu.core (cpu.execute bus word).cpu.core := by
  rcases core_execute_of_none silent with ⟨next, notes, extra, issued, executed⟩ |
    ⟨load, value, -, executed⟩ | ⟨store, -, executed⟩
  · rw [executed]
    exact (Core.issueInstr_completes issued).protected user denied
  · -- The value goes to a general register or into the floating point unit.
    have brought := Core.protected_receive (cpu.core.mark load.demand) load.destination value
    rw [executed]
    exact brought.of_forgetOrders (Core.forgetOrders_mark _ _).symm
  · have marked := Core.forgetOrders_mark cpu.core store.demand
    rw [executed]
    exact (Core.protected_of_same rfl rfl).of_forgetOrders marked.symm

/-- A step of a confined program that raises nothing leaves the protected state alone. -/
theorem step_protected {cpu : Cpu} {bus : β} (silent : cpu.stepTrap bus = none)
    (user : cpu.core.userMode = true) (denied : cpu.core.unitUsable 0 = false) :
    Core.Protected cpu.core (cpu.step bus).cpu.core := by
  obtain ⟨word, memory, quiet, stepped⟩ := step_of_none silent
  have marked := Core.forgetOrders_mark cpu.core cpu.core.fetchDemand
  -- The fetch has changed neither the mode nor the permissions.
  have stillUser : (cpu.core.mark cpu.core.fetchDemand).userMode = true := by
    rw [Core.userMode_mark]
    exact user
  have stillDenied : (cpu.core.mark cpu.core.fetchDemand).unitUsable 0 = false := by
    simpa only [Core.unitUsable, Core.system_mark] using denied
  have kept := (execute_protected quiet stillUser stillDenied).of_forgetOrders marked.symm
  rw [stepped]
  exact ⟨kept.status, kept.system, kept.cause, kept.entries⟩

end Cpu

/-! ### Programs that are left -/

/-- The addresses of the handlers. -/
def handlers : List Word := [0x80000000, 0x80000080, 0xbfc00100, 0xbfc00180]

theorem exceptionVector_mem (refill bootstrap : Bool) :
    exceptionVector refill bootstrap ∈ handlers := by
  cases refill <;> cases bootstrap <;> decide

/-- The kernel has taken over from a program, and knows about the reason only. -/
structure Core.TakenOver (before after : Core) : Prop where
  kernel : after.system.status &&& 0x3 = 0
  handler : after.pc ∈ handlers
  entries : after.mmu.entries? = before.mmu.entries?
  status : after.system.status &&& ~~~0x3f = before.system.status &&& ~~~0x3f
  system : ∀ reg ∉ [SystemControl.statusReg, SystemControl.causeReg, SystemControl.epcReg,
      SystemControl.badAddressReg, SystemControl.entryHiReg, SystemControl.contextReg],
    after.system.read reg = before.system.read reg

theorem Exception.recorded_subset (exception : Exception) :
    exception.recorded ⊆
      [SystemControl.badAddressReg, SystemControl.entryHiReg, SystemControl.contextReg] := by
  cases exception with
  | coprocessorUnusable unit => exact List.nil_subset _
  | _ => decide

theorem Core.takenOver_enter {core before : Core}
    (same : core.forgetOrders = before.forgetOrders) (trap : Trap) :
    before.TakenOver (core.enter trap).1.advance := by
  have entries := entries?_of_forgetOrders same
  rw [enter_of_forgetOrders same]
  constructor
  case kernel =>
    have pushed := status_enter before trap
    change (before.enter trap).1.system.status &&& 0x3 = 0
    rw [pushed]
    exact Status.push_present _
  case handler =>
    have vector := pc_enter before trap
    change (before.enter trap).1.pc ∈ handlers
    rw [vector]
    exact exceptionVector_mem _ _
  case entries => exact entries
  case status => exact status_enter_outside before trap
  case system =>
    intro reg kept
    have notWritten : reg ∉
        [SystemControl.statusReg, SystemControl.causeReg, SystemControl.epcReg] := by
      simp only [List.mem_cons, List.not_mem_nil, or_false, not_or] at kept ⊢
      exact ⟨kept.1, kept.2.1, kept.2.2.1⟩
    have unrecorded : reg ∉ trap.exception.recorded := by
      -- Every register that an exception records is one of the three excluded last.
      intro member
      have told := trap.exception.recorded_subset member
      simp only [List.mem_cons, List.not_mem_nil, or_false, not_or] at kept told
      rcases told with address | key | page
      · exact kept.2.2.2.1 address
      · exact kept.2.2.2.2.1 key
      · exact kept.2.2.2.2.2 page
    exact read_enter before trap notWritten unrecorded

namespace Cpu

variable {β : Type} [Bus β]

/-- What is translated for a program in user mode lies in user space. -/
theorem inUserSpace_of_resolve {core : Core} {address physical : Word} {intent : Intent}
    (resolved : core.resolve true address intent = .ok physical) :
    inUserSpace address = true := by
  cases space : inUserSpace address with
  | true => rfl
  | false => simp [Core.resolve, route, space] at resolved

/-- User mode is isolated. Unless the program may use coprocessor 0, a step in user mode either
enters no exception and leaves the protected state alone, or enters one and hands over to the
kernel with nothing changed but what tells about the reason. Every access of the step comes
from an address of user space. -/
theorem step_isolated (cpu : Cpu) (bus : β)
    (user : hasAny cpu.core.system.status 0x2 = true)
    (denied : hasAny cpu.core.system.status 0x10000000 = false) :
    (entered (cpu.step bus).notes = [] ∧ Core.Protected cpu.core (cpu.step bus).cpu.core ∨
        ∃ exception, entered (cpu.step bus).notes = [exception] ∧
          cpu.core.TakenOver (cpu.step bus).cpu.core) ∧
      cpu.MakesOnly bus (cpu.accesses bus) ∧
        ∀ access ∈ cpu.accesses bus, hasAny access.address 0x80000000 = false := by
  have userMode : cpu.core.userMode = true := user
  refine ⟨?_, step_makesOnly cpu bus, ?_⟩
  · rw [entered_step]
    cases raised : cpu.stepTrap bus with
    | none => exact .inl ⟨rfl, step_protected raised userMode denied⟩
    | some trap =>
      obtain ⟨core, memory, same, stepped⟩ := step_of_trap raised
      refine .inr ⟨trap.exception, rfl, ?_⟩
      rw [stepped]
      exact Core.takenOver_enter same trap
  · -- An address outside of user space is refused before it is translated.
    intro access member
    obtain ⟨physical, resolved, -⟩ := (step_makesOnly cpu bus).translated access member
    rw [userMode] at resolved
    have userSpace := inUserSpace_of_resolve resolved
    simpa [inUserSpace] using userSpace

/-- A program in user mode at the lowest address, without permission for any coprocessor. -/
def userProgram : Cpu :=
  ((Cpu.build (.ofModel .r3051)).1.setSystemReg 12 0x2).1.setPc 0

/-- An instruction at that address which would clear the status register. -/
def clearStatus : Ram where
  base := 0x40000000
  order := .big
  faults := []
  data := #[0x40, 0x80, 0x60, 0x00]

/-- The program is left for the kernel instead, after the fetch as its only access. -/
theorem step_isolated_clear_status :
    hasAny userProgram.core.system.status 0x2 = true ∧
      hasAny userProgram.core.system.status 0x10000000 = false ∧
        userProgram.core.TakenOver (userProgram.step clearStatus).cpu.core ∧
          userProgram.accesses clearStatus = [⟨0, .fetch, .program, .word, 0x40000000⟩] := by
  have user : hasAny userProgram.core.system.status 0x2 = true := by decide +kernel
  have denied : hasAny userProgram.core.system.status 0x10000000 = false := by decide +kernel
  have left : entered (userProgram.step clearStatus).notes = [.coprocessorUnusable 0] := by
    decide +kernel
  obtain ⟨outcome, -, -⟩ := step_isolated userProgram clearStatus user denied
  refine ⟨user, denied, ?_, by decide +kernel⟩
  rcases outcome with ⟨quiet, -⟩ | ⟨exception, -, takenOver⟩
  · rw [left] at quiet
    cases quiet
  · exact takenOver

end Cpu

end R3000

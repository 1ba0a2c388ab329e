import R3000.Proofs.Entering
import R3000.Proofs.Reachability
import R3000.Proofs.Trapping
import R3000.Ram

/-!
# Precise exceptions

A step between two instructions takes at most one exception, and when it does the handler
finds the program as it stood before the failing instruction: where to restart it, whether
it was in a delay slot, why it was left, and the mode it ran in. The handler itself starts
at its vector, with no branch pending.
-/
namespace R3000

namespace Core

/-- The core `after` is at the first instruction of the handler of `trap`, which left the
program that `before` was running. -/
structure HandlerOf (before : Core) (trap : Trap) (after : Core) : Prop where
  /-- An instruction that is in no delay slot is restarted itself. -/
  restartsAt : before.sequencer.state = .none →
    after.system.epc = before.pc ∧ hasAny after.system.cause 0x80000000 = false
  /-- An instruction in a delay slot is restarted at its branch. -/
  restartsBranch : before.sequencer.state = .delay →
    after.system.epc = before.pc - 4 ∧ hasAny after.system.cause 0x80000000 = true
  pendingKept : after.system.cause &&& 0x0000ff00 = before.system.cause &&& 0x0000ff00
  codeShown : after.system.cause &&& 0x0000007c = trap.exception.code <<< 2
  unitShown : after.system.cause &&& 0x30000000 = trap.exception.unitBits
  restClear : after.system.cause &&& 0x4fff0083 = 0
  modePushed : after.system.status &&& 0x3f = before.system.status <<< 2 &&& 0x3c
  statusKept : after.system.status &&& ~~~0x3f = before.system.status &&& ~~~0x3f
  noBranch : after.sequencer.state = .none
  atVector : after.pc =
    if hasAny before.system.status 0x00400000 then
      (if trap.isRefill then 0xbfc00100 else 0xbfc00180)
    else if trap.isRefill then 0x80000000 else 0x80000080

/-! ### The cause of an entered exception -/

section

variable (core : Core) (exception : Exception)

theorem causeAfter_delay :
    hasAny (core.causeAfter exception) 0x80000000 = core.sequencer.inDelaySlot := by
  -- Neither the code of an exception nor a pending interrupt reaches the highest bit.
  have whole := core.causeAfter_and exception 0x80000000
  have noCode : exception.causeBits &&& 0x80000000 = 0 := exception.causeBits_outside (by decide)
  have noPending : core.system.cause &&& (Cause.ip &&& 0x80000000) = 0 := by
    have empty : Cause.ip &&& 0x80000000 = 0 := by decide
    rw [empty]
    simp
  simp only [hasAny]
  rw [whole, noCode, noPending]
  cases core.sequencer.inDelaySlot <;> decide

theorem causeAfter_code :
    core.causeAfter exception &&& 0x0000007c = exception.code <<< 2 := by
  have code : exception.causeBits &&& 0x0000007c = exception.code <<< 2 :=
    exception.causeBits_fields.1
  rw [causeAfter_and_of_clear core exception (by decide), code]
  simp [Cause.ip]

theorem causeAfter_unit :
    core.causeAfter exception &&& 0x30000000 = exception.unitBits := by
  have unit : exception.causeBits &&& 0x30000000 = exception.unitBits :=
    exception.causeBits_fields.2.1
  rw [causeAfter_and_of_clear core exception (by decide), unit]
  simp [Cause.ip]

theorem causeAfter_rest : core.causeAfter exception &&& 0x4fff0083 = 0 := by
  have noCode : exception.causeBits &&& 0x4fff0083 = 0 := exception.causeBits_outside (by decide)
  rw [causeAfter_and_of_clear core exception (by decide), noCode]
  simp [Cause.ip]

end

/-- Entering the handler and going on brings the core to its first instruction. -/
theorem handlerOf_enter (core : Core) (trap : Trap) :
    core.HandlerOf trap (core.enter trap).1.advance := by
  have epc : (core.enter trap).1.advance.system.epc = core.restartPc := epc_enter core trap
  have cause : (core.enter trap).1.advance.system.cause = core.causeAfter trap.exception :=
    cause_enter core trap
  constructor
  case restartsAt =>
    intro straight
    rw [epc, cause, causeAfter_delay]
    simp [restartPc, Sequencer.inDelaySlot, straight]
  case restartsBranch =>
    intro delayed
    rw [epc, cause, causeAfter_delay]
    simp [restartPc, Sequencer.inDelaySlot, delayed]
  case pendingKept => rw [cause, causeAfter_pending]
  case codeShown => rw [cause, causeAfter_code]
  case unitShown => rw [cause, causeAfter_unit]
  case restClear => rw [cause, causeAfter_rest]
  case modePushed => exact status_enter_inside core trap
  case statusKept => exact status_enter_outside core trap
  case noBranch => rfl
  case atVector => exact (pc_enter core trap).trans (exceptionVector_eq _ _)

theorem handlerOf_of_forgetOrders {core other : Core}
    (same : core.forgetOrders = other.forgetOrders) (trap : Trap) :
    other.HandlerOf trap (core.enter trap).1.advance := by
  -- Nothing that the handler finds depends on the search orders.
  have precise := handlerOf_enter other trap
  rw [enter_of_forgetOrders same]
  exact ⟨precise.restartsAt, precise.restartsBranch, precise.pendingKept, precise.codeShown,
    precise.unitShown, precise.restClear, precise.modePushed, precise.statusKept,
    precise.noBranch, precise.atVector⟩

end Core

namespace Cpu

variable {β : Type} [Bus β]

/-- Exceptions are precise. A processor that was never made to execute a word directly is
between two instructions: it is in a delay slot or not, and has no branch or exception left
to account for. Its next step enters the exception of the trap of the step, which is at most
one, and leaves the core at the first instruction of the handler of that trap. -/
theorem step_precise {cpu : Cpu} (reached : cpu.ReachableBetween) (bus : β) :
    (cpu.core.sequencer.state = .none ∨ cpu.core.sequencer.state = .delay) ∧
      entered (cpu.step bus).notes = (cpu.stepTrap bus).toList.map Trap.exception ∧
        ∀ trap, cpu.stepTrap bus = some trap →
          cpu.core.HandlerOf trap (cpu.step bus).cpu.core := by
  refine ⟨reached.atBoundary, entered_step cpu bus, ?_⟩
  intro trap raised
  -- Whichever stage raised the trap, its handler is entered from the state at the start of the
  -- step up to the search orders.
  obtain ⟨core, memory, same, stepped⟩ := step_of_trap raised
  rw [stepped]
  exact Core.handlerOf_of_forgetOrders same trap

/-- A branch to itself at the boot vector, with a system call in its delay slot. -/
def branchOverSyscall : Ram where
  base := 0x1fc00000
  order := .big
  faults := []
  data := #[0x10, 0x00, 0xff, 0xff, 0x00, 0x00, 0x00, 0x0c]

/-- A processor that has executed that branch. -/
def atSyscall : Cpu :=
  ((Cpu.build (.ofModel .r3000A)).1.operate branchOverSyscall .step).cpu

/-- The system call is restarted at the branch, and handled in the bootstrap memory. -/
theorem step_precise_syscall_in_slot :
    atSyscall.ReachableBetween ∧ atSyscall.core.sequencer.state = .delay ∧
      atSyscall.stepTrap branchOverSyscall = some .syscall ∧
        (atSyscall.step branchOverSyscall).cpu.core.system.epc = 0xbfc00000 ∧
          (atSyscall.step branchOverSyscall).cpu.core.pc = 0xbfc00180 := by
  have reached : atSyscall.ReachableBetween := ⟨.ofModel .r3000A, .operate _ rfl .refl⟩
  have raised : atSyscall.stepTrap branchOverSyscall = some .syscall := by decide +kernel
  have delayed : atSyscall.core.sequencer.state = .delay := by decide +kernel
  have place : atSyscall.core.pc - 4 = 0xbfc00000 := by decide +kernel
  have bootstrap : hasAny atSyscall.core.system.status 0x00400000 = true := by decide +kernel
  obtain ⟨-, -, handled⟩ := step_precise reached branchOverSyscall
  have handler := handled .syscall raised
  have vector := handler.atVector
  rw [bootstrap] at vector
  exact ⟨reached, delayed, raised, (handler.restartsBranch delayed).1.trans place, vector⟩

end Cpu

end R3000

import R3000.Core

/-!
# Traps

A trap is the reason why an instruction does not complete, with everything the
handler is told about it. Entering one records the reason, saves the address to
restart at, pushes kernel mode, and goes to the handler. An instruction in a
delay slot is restarted at its branch.

All exceptions are entered here, so what holds of entering holds of each.
-/
namespace R3000

inductive Trap where
  | interrupt
  | addressError (address : Word) (intent : Intent)
  | tlbFault (address key : Word) (intent : Intent) (kind : TlbFaultKind)
  | fetchFailed (address : Word) (reason : BusError)
  | loadFailed (address : Word) (reason : BusError)
  | storeFailed (address : Word) (reason : BusError)
  | syscall
  | breakpoint
  | overflow
  | reserved (word : Word)
  | unusable (unit : Nat)
  deriving DecidableEq, Repr

namespace Trap

def exception : Trap → Exception
  | interrupt => .interrupt
  | addressError _ .write => .addressStore
  | addressError _ _ => .addressLoad
  | tlbFault _ _ _ .modified => .tlbModified
  | tlbFault _ _ .write _ => .tlbStore
  | tlbFault _ _ _ _ => .tlbLoad
  | fetchFailed _ _ => .busFetch
  | loadFailed _ _ | storeFailed _ _ => .busData
  | syscall => .syscall
  | breakpoint => .breakpoint
  | overflow => .overflow
  | reserved _ => .reservedInstruction
  | unusable unit => .coprocessorUnusable unit

/-- The trap has a handler of its own, which only fills the lookaside buffer. -/
def isRefill : Trap → Bool
  | tlbFault _ _ _ kind => kind == .refill
  | _ => false

/-- The notes taken before the exception is entered at `pc`. -/
def notes (pc : Word) : Trap → List Note
  | addressError address intent =>
    [.message (.addressError address intent pc), .event (.addressError address intent)]
  | tlbFault address key intent kind =>
    [.message (.tlbFault kind address (keySpace key) intent),
      .event (.tlbFault address (keySpace key) kind)]
  | fetchFailed address reason => [.message (.fetchFailed address reason)]
  | loadFailed address reason => [.message (.loadFailed address pc reason)]
  | storeFailed address reason => [.message (.storeFailed address pc reason)]
  | reserved word => [.message (.reserved word pc)]
  | interrupt | syscall | breakpoint | overflow | unusable _ => []

/-- What the handler finds about the failing address. -/
def record (system : SystemControl) : Trap → SystemControl
  | addressError address _ => system.recordAddress address
  | tlbFault address key _ _ => system.recordTlbFault address key
  | _ => system

end Trap

/-- The address of the handler. -/
def exceptionVector (refill bootstrap : Bool) : Word :=
  match refill, bootstrap with
  | true, true => 0xbfc00100
  | true, false => 0x80000000
  | false, true => 0xbfc00180
  | false, false => 0x80000080

namespace Core

/-- Where execution restarts after an exception: at the branch of a delay slot. -/
def restartPc (core : Core) : Word :=
  if core.sequencer.inDelaySlot then core.pc - 4 else core.pc

/-- The cause register after an exception: the pending interrupts stay. -/
def causeAfter (core : Core) (exception : Exception) : Word :=
  (core.system.cause &&& Cause.ip) ||| exception.causeBits
    ||| (if core.sequencer.inDelaySlot then Cause.bd else 0)

/-- Go to the handler of a trap. -/
def enter (core : Core) (trap : Trap) : Core × List Note :=
  let epc := core.restartPc
  let cause := core.causeAfter trap.exception
  let system := (((trap.record core.system).put SystemControl.epcReg epc).putCause cause).pushMode
  let vector := exceptionVector trap.isRefill (hasAny system.status Status.bev)
  let leftUserMode := hasAny system.status Status.kup
  let notes := trap.notes core.pc
    ++ [.message (.exceptionEntered trap.exception epc cause vector),
      .message (.registersAtException core.registers),
      .event (.exception trap.exception epc vector)]
    ++ (if leftUserMode then [.event (.privilegeChange false)] else [])
  ({ core with pc := vector, sequencer := core.sequencer.redirect, system }, notes)

end Core

end R3000

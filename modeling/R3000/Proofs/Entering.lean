import R3000.Proofs.SearchOrder

/-!
# Entering a handler

What the handler of a trap finds. Three registers of system control are always written: the
restart address, the cause, and the mode bits of the status register. Which others are
depends on the exception: those that tell the handler about a failing address.
-/
namespace R3000

/-! ### Parts of a word -/

theorem replaceBits_inside (word mask patch : Word) :
    replaceBits word mask patch &&& mask = patch &&& mask := by
  -- Bit by bit, this is a tautology of the three bits at that place.
  apply BitVec.eq_of_getLsbD_eq
  intro index bound
  simp [replaceBits]
  grind

theorem replaceBits_outside (word mask patch : Word) :
    replaceBits word mask patch &&& ~~~mask = word &&& ~~~mask := by
  apply BitVec.eq_of_getLsbD_eq
  intro index bound
  simp [replaceBits]
  grind

/-- Bits that lie within a part that is unchanged are unchanged. -/
theorem and_of_subset {word other part mask : Word} (same : word &&& part = other &&& part)
    (within : part &&& mask = mask) : word &&& mask = other &&& mask := by
  calc
    word &&& mask = (word &&& part) &&& mask := by rw [BitVec.and_assoc, within]
    _ = (other &&& part) &&& mask := by rw [same]
    _ = other &&& mask := by rw [BitVec.and_assoc, within]

theorem hasAny_of_subset {word other part mask : Word} (same : word &&& part = other &&& part)
    (within : part &&& mask = mask) : hasAny word mask = hasAny other mask := by
  simp only [hasAny]
  rw [and_of_subset same within]

/-! ### Fields of the cause -/

namespace Exception

/-- The registers of system control in which an exception tells about a failing address. -/
def recorded : Exception → List RegNum
  | tlbModified | tlbLoad | tlbStore =>
    [SystemControl.badAddressReg, SystemControl.entryHiReg, SystemControl.contextReg]
  | addressLoad | addressStore => [SystemControl.badAddressReg]
  | _ => []

theorem causeBits_fields (exception : Exception) :
    exception.causeBits &&& Cause.excCode = exception.code <<< 2 ∧
      exception.causeBits &&& Cause.ce = exception.unitBits ∧
        exception.causeBits &&& ~~~(Cause.excCode ||| Cause.ce) = 0 := by
  cases exception with
  | coprocessorUnusable unit =>
    -- Only the number modulo four enters, so there are four cases.
    have fields : ∀ number : Fin 4,
        let bits : Word := 11 <<< 2 ||| BitVec.ofNat 32 number.val <<< 28
        bits &&& Cause.excCode = 11 <<< 2 ∧ bits &&& Cause.ce = BitVec.ofNat 32 number.val <<< 28 ∧
          bits &&& ~~~(Cause.excCode ||| Cause.ce) = 0 := by
      decide
    exact fields ⟨unit % 4, Nat.mod_lt _ (by decide)⟩
  | _ => decide

theorem causeBits_outside (exception : Exception) {mask : Word}
    (outside : ~~~(Cause.excCode ||| Cause.ce) &&& mask = mask) :
    exception.causeBits &&& mask = 0 := by
  have clear := exception.causeBits_fields.2.2
  have same : exception.causeBits &&& ~~~(Cause.excCode ||| Cause.ce) =
      0 &&& ~~~(Cause.excCode ||| Cause.ce) := by
    rw [clear]
    simp
  rw [and_of_subset same outside]
  simp

end Exception

/-! ### The system registers -/

namespace Trap

/-- The trap of a failing address records it where its exception says, and nowhere else. -/
theorem read_record {trap : Trap} {reg : RegNum} (kept : reg ∉ trap.exception.recorded)
    (system : SystemControl) : (trap.record system).read reg = system.read reg := by
  cases trap with
  | addressError address intent =>
    have other : reg ≠ SystemControl.badAddressReg := by
      cases intent <;> simpa [exception, Exception.recorded] using kept
    simp [record, SystemControl.recordAddress, SystemControl.read_put, other]
  | tlbFault address key intent kind =>
    have other : reg ≠ SystemControl.badAddressReg ∧ reg ≠ SystemControl.entryHiReg ∧
        reg ≠ SystemControl.contextReg := by
      cases kind <;> cases intent <;> simpa [exception, Exception.recorded] using kept
    simp [record, SystemControl.recordTlbFault, SystemControl.recordAddress,
      SystemControl.read_put, other]
  | _ => rfl

end Trap

namespace Core

section

variable (core : Core) (trap : Trap)

/-- Entering pushes kernel mode, with interrupts off, on the mode stack that the program had. -/
theorem status_enter : (core.enter trap).1.system.status = Status.push core.system.status := by
  have unrecorded : SystemControl.statusReg ∉ trap.exception.recorded := by
    cases trap.exception with
    | coprocessorUnusable unit => exact List.not_mem_nil
    | _ => decide
  simp +decide [enter, SystemControl.pushMode, SystemControl.putStatus, SystemControl.putCause,
    SystemControl.status, SystemControl.read_put, Trap.read_record unrecorded]

theorem cause_enter : (core.enter trap).1.system.cause = core.causeAfter trap.exception := by
  simp +decide [enter, SystemControl.pushMode, SystemControl.putStatus, SystemControl.putCause,
    SystemControl.cause, SystemControl.read_put]

theorem epc_enter : (core.enter trap).1.system.epc = core.restartPc := by
  simp +decide [enter, SystemControl.pushMode, SystemControl.putStatus, SystemControl.putCause,
    SystemControl.epc, SystemControl.read_put]

/-- A part of the cause is made up of the pending interrupts, the exception, and the mark of
a delay slot. -/
theorem causeAfter_and (exception : Exception) (mask : Word) :
    core.causeAfter exception &&& mask =
      (core.system.cause &&& (Cause.ip &&& mask)) ||| (exception.causeBits &&& mask)
        ||| (if core.sequencer.inDelaySlot then Cause.bd &&& mask else 0) := by
  simp only [causeAfter]
  rw [BitVec.and_or_distrib_right, BitVec.and_or_distrib_right, BitVec.and_assoc]
  split
  · rfl
  · simp

/-- Parts of the cause away from the mark of a delay slot do not depend on it. -/
theorem causeAfter_and_of_clear (exception : Exception) {mask : Word}
    (clear : Cause.bd &&& mask = 0) :
    core.causeAfter exception &&& mask =
      (core.system.cause &&& (Cause.ip &&& mask)) ||| (exception.causeBits &&& mask) := by
  rw [causeAfter_and, clear]
  simp

theorem causeAfter_pending (exception : Exception) :
    core.causeAfter exception &&& 0x0000ff00 = core.system.cause &&& 0x0000ff00 := by
  have noCode : exception.causeBits &&& 0x0000ff00 = 0 := exception.causeBits_outside (by decide)
  rw [causeAfter_and_of_clear core exception (by decide), noCode]
  simp [Cause.ip]

/-- Besides what the trap records only the status, the cause and the restart address are written. -/
theorem read_enter_record {reg : RegNum}
    (kept : reg ∉ [SystemControl.statusReg, SystemControl.causeReg, SystemControl.epcReg]) :
    (core.enter trap).1.system.read reg = (trap.record core.system).read reg := by
  simp only [List.mem_cons, List.not_mem_nil, or_false, not_or] at kept
  obtain ⟨notStatus, notCause, notEpc⟩ := kept
  simp [enter, SystemControl.pushMode, SystemControl.putStatus, SystemControl.putCause,
    SystemControl.read_put, notStatus, notCause, notEpc]

/-- The other registers keep what they hold, but for those that tell of a failing address. -/
theorem read_enter {reg : RegNum}
    (kept : reg ∉ [SystemControl.statusReg, SystemControl.causeReg, SystemControl.epcReg])
    (unrecorded : reg ∉ trap.exception.recorded) :
    (core.enter trap).1.system.read reg = core.system.read reg := by
  rw [read_enter_record core trap kept, Trap.read_record unrecorded]

/-- The bits of the status register outside the mode stack stay. -/
theorem status_enter_outside :
    (core.enter trap).1.system.status &&& ~~~Status.kuie =
      core.system.status &&& ~~~Status.kuie := by
  rw [status_enter]
  exact replaceBits_outside _ _ _

/-- The mode stack has moved up, with kernel mode and no interrupts below. -/
theorem status_enter_inside :
    (core.enter trap).1.system.status &&& Status.kuie =
      core.system.status <<< 2 &&& Status.kuieOP := by
  -- The part that is shifted in lies within the mode stack.
  have within : Status.kuieOP &&& Status.kuie = Status.kuieOP := by decide
  rw [status_enter]
  simp only [Status.push]
  rw [replaceBits_inside, BitVec.and_assoc, within]

/-- The four handlers: for refills and for all else, in the bootstrap memory and outside of it. -/
theorem exceptionVector_eq (refill bootstrap : Bool) :
    exceptionVector refill bootstrap =
      if bootstrap then (if refill then 0xbfc00100 else 0xbfc00180)
      else if refill then 0x80000000 else 0x80000080 := by
  cases refill <;> cases bootstrap <;> rfl

/-- The handler is chosen by a bit of the status register that entering leaves alone. -/
theorem pc_enter :
    (core.enter trap).1.pc =
      exceptionVector trap.isRefill (hasAny core.system.status Status.bev) := by
  have sameBit : hasAny (core.enter trap).1.system.status Status.bev =
      hasAny core.system.status Status.bev :=
    hasAny_of_subset (status_enter_outside core trap) (by decide)
  rw [← sameBit]
  rfl

end

end Core

end R3000

import R3000.Proofs.Courses
import R3000.Proofs.RunInvariants

/-!
# What changes a slot

A slot of the lookaside buffer changes when an instruction stores the entry registers in it, and at
no other time. The slot is the one that the index register names, or the one that the random counter
names in the cycle of the instruction. All else that an operation does to the mapping hardware is to
move or to reset the search orders.
-/
namespace R3000

/-! ### Storing an entry -/

namespace Mmu

/-- The hardware after an entry is stored, if it is. -/
def store (mmu : Mmu) (entry : TlbEntry) : Option (Fin 64) → Mmu
  | some slot => mmu.mapBuffer (·.setEntry slot entry)
  | none => mmu

/-- There is a buffer, with these entries. -/
def Holds (mmu : Mmu) (entries : Fin 64 → TlbEntry) : Prop :=
  ∃ buffer, mmu.buffer? = some buffer ∧ ∀ slot, buffer.entry slot = entries slot

theorem holds_of_hasBuffer {mmu : Mmu} (buffered : mmu.hasBuffer = true) :
    ∃ entries, mmu.Holds entries := by
  obtain ⟨buffer, present⟩ := Option.isSome_iff_exists.mp buffered
  exact ⟨buffer.entry, buffer, present, fun _ => rfl⟩

theorem Holds.hasBuffer {mmu : Mmu} {entries : Fin 64 → TlbEntry} (holds : mmu.Holds entries) :
    mmu.hasBuffer = true := by
  obtain ⟨buffer, present, -⟩ := holds
  simp only [Mmu.hasBuffer, present, Option.isSome_some]

theorem Holds.of_forgetOrders {mmu other : Mmu} {entries : Fin 64 → TlbEntry}
    (holds : other.Holds entries) (same : mmu.forgetOrders = other.forgetOrders) :
    mmu.Holds entries := by
  obtain ⟨old, present, stored⟩ := holds
  -- The entries are the same as a whole, and so each of them is.
  have alike := entries?_of_forgetOrders same
  simp only [entries?, present, Option.map_some, Option.map_eq_some_iff] at alike
  obtain ⟨buffer, found, equal⟩ := alike
  refine ⟨buffer, found, ?_⟩
  intro slot
  rw [← stored slot]
  exact congrArg (·[slot]) equal

theorem Holds.store {mmu : Mmu} {entries : Fin 64 → TlbEntry} (holds : mmu.Holds entries)
    (entry : TlbEntry) (written : Option (Fin 64)) :
    (mmu.store entry written).Holds fun slot =>
      if written = some slot then entry else entries slot := by
  obtain ⟨buffer, present, stored⟩ := holds
  cases written with
  | none => exact ⟨buffer, present, stored⟩
  | some target =>
    refine ⟨buffer.setEntry target entry, ?_, ?_⟩
    · simp only [Mmu.store, buffer?_mapBuffer, present, Option.map_some]
    · intro slot
      simp only [Tlb.entry_setEntry, stored, Option.some.injEq, eq_comm]

theorem forgetOrders_store {mmu other : Mmu} (same : mmu.forgetOrders = other.forgetOrders)
    (entry : TlbEntry) (written : Option (Fin 64)) :
    (mmu.store entry written).forgetOrders = (other.store entry written).forgetOrders := by
  cases written with
  | none => exact same
  | some slot => simp only [Mmu.store, forgetOrders_setEntry, same]

theorem hasBuffer_store (mmu : Mmu) (entry : TlbEntry) (written : Option (Fin 64)) :
    (mmu.store entry written).hasBuffer = mmu.hasBuffer := by
  cases written with
  | none => rfl
  | some slot => cases mmu <;> rfl

end Mmu

/-! ### Instructions -/

/-- The slot that a value of the index register names in its bits 13 to 8. -/
def slotOf (index : Word) : Fin 64 := ⟨index.toNat / 256 % 64, Nat.mod_lt _ (by decide)⟩

theorem SystemControl.indexedSlot_eq (system : SystemControl) :
    system.indexedSlot = slotOf (system.read 0) := by
  apply Fin.ext
  change ((system.read 0).extractLsb' 8 6).toNat = (system.read 0).toNat / 256 % 64
  rw [BitVec.extractLsb'_toNat, Nat.shiftRight_eq_div_pow]

namespace Core

/-- The slot in which an instruction stores the entry registers, if it completes. -/
def slotWritten? (core : Core) (random : Fin 64) : Instr → Option (Fin 64)
  | .system (.tlb .writeIndexed) => some (slotOf (core.system.read 0))
  | .system (.tlb .writeRandom) => some random
  | _ => none

section

variable {core next : Core} {random : Fin 64} {word : Word} {notes : List Note} {extra : Nat}

theorem slotWritten?_cases {instr : Instr} {slot : Fin 64}
    (written : core.slotWritten? random instr = some slot) :
    (instr = .system (.tlb .writeIndexed) ∧ slotOf (core.system.read 0) = slot) ∨
      (instr = .system (.tlb .writeRandom) ∧ random = slot) := by
  unfold slotWritten? at written
  split at written
  · exact .inl ⟨rfl, Option.some.inj written⟩
  · exact .inr ⟨rfl, Option.some.inj written⟩
  · cases written

/-- An instruction on the lookaside buffer completes only if there is one. -/
theorem issueTlb_of_issueSystem {op : TlbOp}
    (issued : core.issueSystem random word (.tlb op) = .retire next notes extra) :
    ∃ buffer, core.mmu.buffer? = some buffer ∧
      core.issueTlb random buffer op = .retire next notes extra := by
  simp only [issueSystem] at issued
  split at issued
  · cases issued
  · split at issued
    next buffer present => exact ⟨buffer, present, issued⟩
    · cases issued

/-- An instruction that asks for an access stores nothing in a slot. -/
theorem slotWritten?_of_asks {instr : Instr}
    (asks : (core.issueInstr random word instr).asks = true) :
    core.slotWritten? random instr = none := by
  cases instr with
  | system op => exact absurd asks (by simp [issueInstr, asks_issueSystem])
  -- Nothing but system control stores an entry.
  | _ => rfl

/-- An instruction that completes stores the entry registers in its slot, and does nothing else to
the mapping hardware. -/
theorem mmu_issueInstr {instr : Instr}
    (done : core.issueInstr random word instr = .retire next notes extra) :
    next.mmu = core.mmu.store core.system.entry (core.slotWritten? random instr) := by
  cases instr with
  | system op =>
    have issued : core.issueSystem random word op = .retire next notes extra := done
    cases op with
    | tlb op =>
      -- Two of the four store the entry registers; reading and probing leave the buffer alone.
      obtain ⟨buffer, present, found⟩ := issueTlb_of_issueSystem issued
      cases op with
      | writeIndexed =>
        cases found
        rw [core.system.indexedSlot_eq]
        rfl
      | read | writeRandom | probe =>
        cases found
        rfl
    | moveFrom rt source | restoreMode | reserved => cases issueSystem_completes issued <;> rfl
    | moveTo rt target =>
      cases issueSystem_completes issued
      exact mmu_writeSystem _ _ _
    | branch branch =>
      cases issueSystem_completes issued
      obtain ⟨pc, sequencer, branched⟩ := core.branchIf_eq
        (core.condition 0 == branch.sense) branch.likely branch.offset
      rw [branched]
      rfl
  | _ =>
    cases issueInstr_completes done with
    | program registers pc sequencer silent => rfl
    | unit update prior usable present sameLine settled routine => exact mmu_updateUnit _ _ _
    | system decoded permitted issued => cases decoded

end

end Core

/-! ### Operations -/

namespace Cpu

variable {β : Type} [Bus β]

/-- The slot in which an operation stores the entry registers, if it executes an instruction that
does so and enters no exception instead. -/
def storedSlot? (cpu : Cpu) (bus : β) (operation : Operation) : Option (Fin 64) :=
  if entered (cpu.operate bus operation).notes = [] then
    (cpu.executed? bus operation).bind fun word =>
      cpu.core.slotWritten? (cpu.randomDuring operation) (decode word)
  else none

section

variable {cpu start : Cpu} {bus memory : β} {operation : Operation} {word : Word}

theorem Ran.storedSlot? (ran : cpu.Ran bus operation word start memory) :
    cpu.storedSlot? bus operation =
      cpu.core.slotWritten? (cpu.randomDuring operation) (decode word) := by
  simp only [Cpu.storedSlot?, if_pos ran.quiet, ran.executed, Option.bind_some]

theorem Left.storedSlot? {trap : Trap} {core : Core}
    (left : cpu.Left bus operation trap core memory) :
    cpu.storedSlot? bus operation = none := if_neg left.reported

theorem storedSlot?_of_host (host : operation.runs = false) :
    cpu.storedSlot? bus operation = none := by
  simp only [Cpu.storedSlot?, executed?_of_host host, Option.bind_none, ite_self]

/-- An instruction that raises nothing stores the entry registers in its slot. -/
theorem mmu_execute_of_none (silent : cpu.executeTrap bus word = none) :
    (cpu.execute bus word).cpu.core.mmu.forgetOrders =
      (cpu.core.mmu.store cpu.core.system.entry
        (cpu.core.slotWritten? cpu.random (decode word))).forgetOrders := by
  rcases core_execute_of_none silent with ⟨next, notes, extra, issued, executed⟩ |
    ⟨load, value, issued, executed⟩ | ⟨store, issued, executed⟩
  · rw [executed, Core.mmu_issueInstr issued]
  -- Loads and stores move the search order to the entry that translates their address.
  · have unwritten : cpu.core.slotWritten? cpu.random (decode word) = none :=
      Core.slotWritten?_of_asks (congrArg Issue.asks issued)
    rw [executed, unwritten, Core.mmu_receive]
    exact Core.mapping_of_forgetOrders (Core.forgetOrders_mark _ _)
  · have unwritten : cpu.core.slotWritten? cpu.random (decode word) = none :=
      Core.slotWritten?_of_asks (congrArg Issue.asks issued)
    rw [executed, unwritten]
    exact Core.mapping_of_forgetOrders (Core.forgetOrders_mark _ _)

theorem Ran.stored (ran : cpu.Ran bus operation word start memory) :
    (cpu.operate bus operation).cpu.core.mmu.forgetOrders =
      (cpu.core.mmu.store cpu.core.system.entry (cpu.storedSlot? bus operation)).forgetOrders := by
  have sameSlot : start.core.slotWritten? start.random (decode word) =
      cpu.storedSlot? bus operation := by
    rw [ran.storedSlot?, ran.random]
    simp only [Core.slotWritten?, ran.system]
  rw [ran.closes.mmu, mmu_execute_of_none ran.silent, sameSlot, ran.system]
  exact Mmu.forgetOrders_store (Core.mapping_of_forgetOrders ran.same) _ _

/-- What the host does without running the processor leaves the entries alone. -/
theorem mmu_operate_of_host (host : operation.runs = false) :
    (cpu.operate bus operation).cpu.core.mmu.forgetOrders = cpu.core.mmu.forgetOrders := by
  cases operation with
  | step | execute word => cases host
  | reset =>
    change (cpu.core.mmu.mapBuffer Tlb.resetOrders).forgetOrders = cpu.core.mmu.forgetOrders
    cases cpu.core.mmu <;> rfl
  | setSystemReg number value =>
    exact congrArg Mmu.forgetOrders (Core.mmu_writeSystem cpu.core number value)
  | setInput line asserted =>
    exact congrArg Mmu.forgetOrders (Core.mmu_setInput cpu.core line asserted)
  | setPc pc => rfl
  | setGpr number value => rfl
  | setFpr number value => rfl
  | setCondition unit condition => rfl

end

/-- All that an operation does to the mapping hardware, up to the search orders, is to store the
entry registers in its slot. -/
theorem mmu_operate (cpu : Cpu) (bus : β) (operation : Operation) :
    (cpu.operate bus operation).cpu.core.mmu.forgetOrders =
      (cpu.core.mmu.store cpu.core.system.entry (cpu.storedSlot? bus operation)).forgetOrders := by
  rcases cpu.operate_courses bus operation with ⟨word, start, memory, ran⟩ |
    ⟨trap, core, memory, left⟩ | host
  · exact ran.stored
  -- A trap comes before anything is stored.
  · have mapping := Core.mapping_of_forgetOrders left.same
    rw [left.storedSlot?, left.closes.mmu]
    exact mapping
  · rw [storedSlot?_of_host host]
    exact mmu_operate_of_host host

theorem hasBuffer_operate (cpu : Cpu) (bus : β) (operation : Operation) :
    (cpu.operate bus operation).cpu.core.mmu.hasBuffer = cpu.core.mmu.hasBuffer := by
  rw [Mmu.hasBuffer_of_forgetOrders (cpu.mmu_operate bus operation), Mmu.hasBuffer_store]

theorem holds_operate {cpu : Cpu} {entries : Fin 64 → TlbEntry}
    (holds : cpu.core.mmu.Holds entries) (bus : β) (operation : Operation) :
    (cpu.operate bus operation).cpu.core.mmu.Holds fun slot =>
      if cpu.storedSlot? bus operation = some slot then cpu.core.system.entry else entries slot :=
  (holds.store _ _).of_forgetOrders (cpu.mmu_operate bus operation)

end Cpu

end R3000

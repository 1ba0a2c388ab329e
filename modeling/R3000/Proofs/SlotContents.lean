import R3000.Proofs.SlotStorage

/-!
# What the slots hold

The entry registers and the context register have bits without a function. On a processor with a
lookaside buffer they are clear at all times. Writes leave them clear, and so does everything that
sets these registers without a write: the key of a fault, the entry that is read from a slot, and
the values that a reset leaves. So a slot gives back exactly what the entry registers held when it
was last written, whatever happened since.
-/
namespace R3000

/-! ### Bits without a function -/

/-- The bits of an entry that have no function are clear. -/
structure TlbEntry.Trimmed (entry : TlbEntry) : Prop where
  hi : entry.hi &&& 0x3f = 0
  lo : entry.lo &&& 0xff = 0

theorem TlbEntry.trimmed_empty : TlbEntry.empty.Trimmed := ⟨by decide, by decide⟩

/-- A part that a mask leaves out is clear. -/
theorem and_and_of_clear {mask part : Word} (apart : mask &&& part = 0) (word : Word) :
    word &&& mask &&& part = 0 := by
  rw [BitVec.and_assoc, apart]
  exact BitVec.and_zero

theorem searchKey_clear (address entryHi : Word) : searchKey address entryHi &&& 0x3f = 0 := by
  rw [searchKey, BitVec.and_or_distrib_right, and_and_of_clear (by decide),
    and_and_of_clear (by decide)]
  exact BitVec.or_zero

namespace SystemControl

/-- The bits of a register that have no function on a processor with a lookaside buffer. -/
def unusedBits (reg : RegNum) : Word :=
  if reg = entryHiReg then 0x3f
  else if reg = entryLoReg then 0xff
  else if reg = contextReg then 0x3
  else 0

/-- The bits without a function are clear. -/
def Trimmed (system : SystemControl) : Prop := ∀ reg, system.read reg &&& unusedBits reg = 0

section

variable {system : SystemControl}

theorem trimmed_initial : initial.Trimmed := by
  intro reg
  revert reg
  decide

theorem Trimmed.put (trimmed : system.Trimmed) {reg : RegNum} {value : Word}
    (clear : value &&& unusedBits reg = 0) : (system.put reg value).Trimmed := by
  intro other
  rw [read_put]
  split
  next same =>
    rw [same]
    exact clear
  next => exact trimmed other

/-- A register whose bits are all used takes any value. -/
theorem Trimmed.putUsed (trimmed : system.Trimmed) {reg : RegNum} (used : unusedBits reg = 0)
    (value : Word) : (system.put reg value).Trimmed := by
  apply trimmed.put
  rw [used]
  exact BitVec.and_zero

theorem Trimmed.entry (trimmed : system.Trimmed) : system.entry.Trimmed :=
  ⟨trimmed entryHiReg, trimmed entryLoReg⟩

theorem Trimmed.putEntry (trimmed : system.Trimmed) {entry : TlbEntry} (clear : entry.Trimmed) :
    (system.putEntry entry).Trimmed :=
  Trimmed.put (trimmed.put clear.hi) clear.lo

theorem entry_putEntry (system : SystemControl) (entry : TlbEntry) :
    (system.putEntry entry).entry = entry := by
  simp +decide [SystemControl.entry, SystemControl.putEntry, read_put]

/-- The write masks keep the bits clear. -/
theorem Trimmed.write (trimmed : system.Trimmed) (reg : RegNum) (value : Word) :
    (system.write true reg value).Trimmed := by
  -- The three registers with bits to keep clear are written through masks of their own.
  by_cases hi : reg = entryHiReg
  · subst hi
    exact trimmed.put (and_and_of_clear (by decide) value)
  · by_cases lo : reg = entryLoReg
    · subst lo
      exact trimmed.put (and_and_of_clear (by decide) value)
    · by_cases context : reg = contextReg
      · subst context
        -- A write replaces the base only, so the lowest bits are those from before.
        have kept : replaceBits (system.read contextReg) contextBase value &&& 0x3 =
            system.read contextReg &&& 0x3 :=
          and_of_subset (replaceBits_outside _ _ _) (by decide)
        exact trimmed.put (kept.trans (trimmed contextReg))
      · exact trimmed.putUsed (by simp only [unusedBits, hi, lo, context, if_false]) _

/-- What a fault tells the handler has the bits clear as well. -/
theorem Trimmed.recordTlbFault (trimmed : system.Trimmed) {key : Word} (clear : key &&& 0x3f = 0)
    (address : Word) : (system.recordTlbFault address key).Trimmed := by
  have recorded := trimmed.putUsed (by decide : unusedBits badAddressReg = 0) address
  have keyed : ((system.recordAddress address).put entryHiReg key).Trimmed := recorded.put clear
  apply keyed.put
  change _ &&& 0x3 = _
  rw [BitVec.and_or_distrib_right, and_and_of_clear (by decide), and_and_of_clear (by decide)]
  exact BitVec.or_zero

/-- So have the values that a reset leaves. -/
theorem Trimmed.resetBusRegisters (trimmed : system.Trimmed) : system.resetBusRegisters.Trimmed :=
  Trimmed.put (Trimmed.put (Trimmed.put (Trimmed.put (trimmed.put (by decide)) (by decide))
    (by decide)) (by decide)) (by decide)

end

end SystemControl

/-! ### Instructions, traps and changes by the host -/

namespace Core

open SystemControl

section

variable {core : Core}

theorem trimmed_writeSystem (trimmed : core.system.Trimmed) (buffered : core.mmu.hasBuffer = true)
    (number : Nat) (value : Word) : (core.writeSystem number value).1.system.Trimmed := by
  simp only [writeSystem]
  split
  · exact trimmed.putUsed (by decide) value
  · rw [buffered]
    exact trimmed.write _ value

theorem trimmed_setInput (trimmed : core.system.Trimmed) (line : Nat) (asserted : Bool) :
    (core.setInput line asserted).1.system.Trimmed := by
  simp only [setInput]
  split
  · exact trimmed
  · split <;> exact trimmed.putUsed (by decide) _

theorem trimmed_updateUnit (trimmed : core.system.Trimmed) (unit : FloatUnit)
    (update : LineUpdate) : (core.updateUnit unit update).1.system.Trimmed := by
  cases update with
  | none => exact trimmed
  | some level =>
    -- The interrupt input is driven once the unit is put back.
    have returned : { core with fpu := some unit }.system.Trimmed := trimmed
    exact trimmed_setInput returned unit.irq level

theorem trimmed_resetSystem (trimmed : core.system.Trimmed) : core.resetSystem.Trimmed := by
  have cleared : ((core.system.putCause 0).put SystemControl.pridReg core.config.cpurev).Trimmed :=
    SystemControl.Trimmed.putUsed (trimmed.putUsed (by decide) 0) (by decide) _
  -- On models that have them, the registers of the bus interface take the places of others.
  have shown {system : SystemControl} (clear : system.Trimmed) :
      (if core.config.model.hasBusRegisters then system.resetBusRegisters else system).Trimmed := by
    split
    · exact clear.resetBusRegisters
    · exact clear
  apply shown
  cases core.mmu with
  | tlb buffer => exact cleared.putUsed (by decide) _
  | fixed | bypass buffer => exact cleared

theorem trimmed_reset (trimmed : core.system.Trimmed) : core.reset.1.system.Trimmed :=
  trimmed_resetSystem (trimmed.putUsed (by decide) _)

theorem trimmed_enter (trimmed : core.system.Trimmed) {trap : Trap}
    (clear : ∀ {address key intent kind}, trap = .tlbFault address key intent kind →
      key &&& 0x3f = 0) : (core.enter trap).1.system.Trimmed := by
  have recorded : (trap.record core.system).Trimmed := by
    -- Faults of translation write the key without the mask of a write.
    cases trap with
    | tlbFault address key intent kind => exact trimmed.recordTlbFault (clear rfl) address
    | addressError address intent => exact trimmed.putUsed (by decide) address
    | _ => exact trimmed
  have restarts := recorded.putUsed (by decide : unusedBits epcReg = 0) core.restartPc
  have told := restarts.putUsed (by decide : unusedBits causeReg = 0)
    (core.causeAfter trap.exception)
  exact told.putUsed (by decide : unusedBits statusReg = 0) _

theorem system_receive (core : Core) (destination : Destination) {width : Width}
    (value : BitVec width.bits) : (core.receive destination value).system = core.system := by
  cases destination <;> rfl

theorem trimmed_issueInstr {next : Core} {random : Fin 64} {word : Word} {instr : Instr}
    {notes : List Note} {extra : Nat} {entries : Fin 64 → TlbEntry}
    (trimmed : core.system.Trimmed) (holds : core.mmu.Holds entries)
    (clear : ∀ slot, (entries slot).Trimmed)
    (done : core.issueInstr random word instr = .retire next notes extra) :
    next.system.Trimmed := by
  have buffered : core.mmu.hasBuffer = true := holds.hasBuffer
  cases issueInstr_completes done with
  | program registers pc sequencer silent => exact trimmed
  | @unit unit after update prior usable present sameLine settled routine =>
    exact trimmed_updateUnit trimmed after update
  | @system op _ _ _ decoded permitted issued =>
    cases op with
    | tlb op =>
      obtain ⟨buffer, present, found⟩ := issueTlb_of_issueSystem issued
      cases op with
      | read =>
        -- The entry is loaded without a mask, but it was stored from clear registers.
        cases found
        obtain ⟨_, held, stored⟩ := holds
        cases present.symm.trans held
        apply trimmed.putEntry
        rw [stored]
        exact clear _
      | writeIndexed | writeRandom => cases found; exact trimmed
      | probe => cases found; exact trimmed.putUsed (by decide) _
    | moveTo rt target =>
      cases issueSystem_completes issued
      exact trimmed_writeSystem trimmed buffered _ _
    | restoreMode =>
      cases issueSystem_completes issued
      exact trimmed.putUsed (by decide) _
    | moveFrom rt source => cases issueSystem_completes issued; exact trimmed
    | reserved => cases issueSystem_completes issued
    | branch branch =>
      cases issueSystem_completes issued
      obtain ⟨pc, sequencer, branched⟩ := core.branchIf_eq
        (core.condition 0 == branch.sense) branch.likely branch.offset
      rw [branched]
      exact trimmed

end

end Core

/-! ### Operations -/

namespace Cpu

/-- The slots hold these entries, and no bit without a function is set, neither in them nor in the
registers. -/
structure Keeps (cpu : Cpu) (entries : Fin 64 → TlbEntry) : Prop where
  holds : cpu.core.mmu.Holds entries
  trimmed : cpu.core.system.Trimmed
  clear : ∀ slot, (entries slot).Trimmed

section

variable {β : Type} [Bus β] {cpu start : Cpu} {bus memory : β} {operation : Operation}
  {word : Word} {entries : Fin 64 → TlbEntry}

theorem Keeps.of_forgetOrders {other : Cpu} (keeps : other.Keeps entries)
    (same : cpu.core.forgetOrders = other.core.forgetOrders) : cpu.Keeps entries where
  holds := keeps.holds.of_forgetOrders (Core.mapping_of_forgetOrders same)
  trimmed := (Core.system_of_forgetOrders same) ▸ keeps.trimmed
  clear := keeps.clear

theorem Keeps.execute (keeps : cpu.Keeps entries) (silent : cpu.executeTrap bus word = none) :
    (cpu.execute bus word).cpu.core.system.Trimmed := by
  rcases core_execute_of_none silent with ⟨next, notes, extra, issued, executed⟩ |
    ⟨load, value, -, executed⟩ | ⟨store, -, executed⟩
  · rw [executed]
    exact Core.trimmed_issueInstr keeps.trimmed keeps.holds keeps.clear issued
  · rw [executed, Core.system_receive, Core.system_mark]
    exact keeps.trimmed
  · rw [executed, Core.system_mark]
    exact keeps.trimmed

theorem Keeps.host (keeps : cpu.Keeps entries) (host : operation.runs = false) :
    (cpu.operate bus operation).cpu.core.system.Trimmed := by
  have buffered : cpu.core.mmu.hasBuffer = true := keeps.holds.hasBuffer
  cases operation with
  | step | execute word => cases host
  | reset => exact Core.trimmed_reset keeps.trimmed
  | setSystemReg number value => exact Core.trimmed_writeSystem keeps.trimmed buffered number value
  | setInput line asserted => exact Core.trimmed_setInput keeps.trimmed line asserted
  | setPc pc => exact keeps.trimmed
  | setGpr number value => exact keeps.trimmed
  | setFpr number value => exact keeps.trimmed
  | setCondition unit condition => exact keeps.trimmed

/-- No operation sets a bit without a function. -/
theorem Keeps.operate (keeps : cpu.Keeps entries) (bus : β) (operation : Operation) :
    (cpu.operate bus operation).cpu.Keeps fun slot =>
      if cpu.storedSlot? bus operation = some slot then cpu.core.system.entry
      else entries slot where
  holds := holds_operate keeps.holds bus operation
  trimmed := by
    rcases cpu.operate_courses bus operation with ⟨word, start, memory, ran⟩ |
      ⟨trap, core, memory, left⟩ | host
    · rw [ran.closes.system]
      exact (keeps.of_forgetOrders ran.same).execute ran.silent
    · have before : core.system.Trimmed := (Core.system_of_forgetOrders left.same) ▸ keeps.trimmed
      rw [left.closes.system]
      -- The key of the fault is made from the page of the address and the key register.
      apply Core.trimmed_enter before
      intro address key intent kind fault
      rw [left.key fault]
      exact searchKey_clear _ _
    · exact keeps.host host
  clear := by
    intro slot
    split
    · exact keeps.trimmed.entry
    · exact keeps.clear slot

/-- An instruction that reads a slot loads its entry into the entry registers. -/
theorem Ran.entry_of_read (ran : cpu.Ran bus operation word start memory)
    (reads : decode word = .system (.tlb .read)) (holds : cpu.core.mmu.Holds entries) :
    (cpu.operate bus operation).cpu.core.system.entry =
      entries (slotOf (cpu.core.system.read 0)) := by
  rw [← SystemControl.indexedSlot_eq]
  obtain ⟨buffer, present, stored⟩ :=
    holds.of_forgetOrders (Core.mapping_of_forgetOrders ran.same)
  obtain ⟨next, notes, extra, issued, executed⟩ := retired_of_none ran.silent reads
  obtain ⟨other, found, done⟩ := Core.issueTlb_of_issueSystem issued
  cases found.symm.trans present
  cases done
  -- The instruction is the last thing in the operation that touches the entry registers.
  rw [ran.closes.system, executed]
  exact (SystemControl.entry_putEntry _ _).trans (ran.system ▸ stored _)

end

/-! ### Runs -/

/-- A processor that was built from some description and has been operated in any way since, with
what the entry registers held when each slot was last written. A slot that was not written is
empty. -/
inductive Stocked : (Fin 64 → TlbEntry) → Cpu → Prop where
  | built (config : Config) : Stocked (fun _ => .empty) (Cpu.build config).1
  | operate {β : Type} [Bus β] {latest : Fin 64 → TlbEntry} {cpu : Cpu} (bus : β)
      (operation : Operation) (before : Stocked latest cpu) :
      Stocked
        (fun slot =>
          if cpu.storedSlot? bus operation = some slot then cpu.core.system.entry
          else latest slot)
        (cpu.operate bus operation).cpu

theorem keeps_build {config : Config} (buffered : (Cpu.build config).1.core.mmu.hasBuffer = true) :
    (Cpu.build config).1.Keeps fun _ => .empty where
  holds := by
    have hardware : (Cpu.build config).1.core.mmu =
        (Mmu.ofMapping config.mapping).mapBuffer Tlb.resetOrders := rfl
    have empty (slot : Fin 64) : Tlb.initial.resetOrders.entry slot = .empty :=
      Vector.getElem_replicate _
    rw [hardware] at buffered ⊢
    generalize config.mapping = mapping at buffered
    cases mapping with
    | fixed => cases buffered
    | tlb | bypass => exact ⟨_, rfl, empty⟩
  trimmed := Core.trimmed_reset SystemControl.trimmed_initial
  clear := fun _ => TlbEntry.trimmed_empty

/-- The slots hold what was last written to them. -/
theorem Stocked.keeps {latest : Fin 64 → TlbEntry} {cpu : Cpu} (run : Stocked latest cpu)
    (buffered : cpu.core.mmu.hasBuffer = true) : cpu.Keeps latest := by
  -- By induction on the run. A processor has a buffer for ever, or never.
  induction run with
  | built config => exact keeps_build buffered
  | @operate β _ latest cpu bus operation before ih =>
    rw [hasBuffer_operate] at buffered
    exact (ih buffered).operate bus operation

/-- Slots give back what was stored in them. After any run of a processor with a lookaside buffer,
the bits without a function are clear in the registers and in all slots. An operation changes at
most the slot in which the instruction that it executes stores the entry registers, and then to what
these hold. And an instruction that reads the slot which the index register names in its bits 13 to
8 loads what the entry registers held when that slot was last written, however long ago. -/
theorem slots_give_back {latest : Fin 64 → TlbEntry} {cpu : Cpu} {buffer : Tlb}
    (run : Stocked latest cpu) (present : cpu.buffer? = some buffer) :
    (cpu.systemReg 10 &&& 0x3f = 0 ∧ cpu.systemReg 2 &&& 0xff = 0 ∧ cpu.systemReg 4 &&& 0x3 = 0) ∧
      (∀ slot, buffer.entry slot = latest slot ∧ (buffer.entry slot).hi &&& 0x3f = 0 ∧
        (buffer.entry slot).lo &&& 0xff = 0) ∧
      ∀ {β : Type} [Bus β] (bus : β) (operation : Operation),
        let after := cpu.operate bus operation
        (∃ next, after.cpu.buffer? = some next ∧ ∀ slot, next.entry slot =
            if cpu.storedSlot? bus operation = some slot then
              ⟨cpu.systemReg 10, cpu.systemReg 2⟩
            else buffer.entry slot) ∧
          ∀ word, cpu.executed? bus operation = some word →
            decode word = .system (.tlb .read) → entered after.notes = [] →
              after.cpu.systemReg 10 = (latest (slotOf (cpu.systemReg 0))).hi ∧
                after.cpu.systemReg 2 = (latest (slotOf (cpu.systemReg 0))).lo := by
  have buffered : cpu.core.mmu.hasBuffer = true := Option.isSome_iff_exists.mpr ⟨buffer, present⟩
  have keeps := run.keeps buffered
  obtain ⟨held, hardware, stored⟩ := keeps.holds
  cases hardware.symm.trans present
  refine ⟨⟨keeps.trimmed.entry.hi, keeps.trimmed.entry.lo, keeps.trimmed SystemControl.contextReg⟩,
    ?_, ?_⟩
  · intro slot
    rw [stored]
    exact ⟨rfl, (keeps.clear slot).hi, (keeps.clear slot).lo⟩
  · intro β _ bus operation after
    constructor
    · obtain ⟨next, found, entries⟩ := holds_operate keeps.holds bus operation
      refine ⟨next, found, ?_⟩
      intro slot
      rw [entries, stored]
      rfl
    · intro word executed reads quiet
      have loaded : after.cpu.core.system.entry = latest (slotOf (cpu.systemReg 0)) := by
        obtain ⟨start, memory, ran⟩ := ran_of_executed executed quiet
        exact ran.entry_of_read reads keeps.holds
      exact ⟨congrArg TlbEntry.hi loaded, congrArg TlbEntry.lo loaded⟩

/-- A host has stored an entry in slot 5. Then it wrote another key, a load from user space was
not translated, and the processor was reset. -/
def slotStored : Cpu :=
  (Cpu.build (.ofModel .r3000A)).1.operateAll noMemory
    [.setSystemReg 10 0x1fff, .setSystemReg 2 0x26ff, .setSystemReg 0 0x0500, .execute 0x42000002,
      .setSystemReg 10 0x3000, .execute 0x8c014000, .reset]

/-- Reading slot 5 gives back the entry, without the bits that have no function. -/
theorem slots_give_back_after_reset :
    slotStored.systemReg 10 = 0x4000 ∧
      (slotStored.execute noMemory 0x42000001).cpu.systemReg 10 = 0x1fc0 ∧
      (slotStored.execute noMemory 0x42000001).cpu.systemReg 2 = 0x2600 := by
  have run : Stocked _ slotStored :=
    .operate noMemory .reset <| .operate noMemory (.execute 0x8c014000) <|
      .operate noMemory (.setSystemReg 10 0x3000) <| .operate noMemory (.execute 0x42000002) <|
      .operate noMemory (.setSystemReg 0 0x0500) <| .operate noMemory (.setSystemReg 2 0x26ff) <|
      .operate noMemory (.setSystemReg 10 0x1fff) (.built _)
  obtain ⟨buffer, present⟩ : ∃ buffer, slotStored.buffer? = some buffer := ⟨_, rfl⟩
  obtain ⟨-, -, each⟩ := slots_give_back run present
  obtain ⟨-, loads⟩ := each noMemory (.execute 0x42000001)
  obtain ⟨hi, lo⟩ := loads _ rfl (by decide) (by decide +kernel)
  exact ⟨by decide +kernel, hi.trans (by decide +kernel), lo.trans (by decide +kernel)⟩

end Cpu

end R3000

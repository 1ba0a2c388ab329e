import R3000.Proofs.Courses
import R3000.Proofs.Entering
import R3000.Proofs.RunInvariants
import R3000.Proofs.Translation
import R3000.Ram

/-!
# Refilling the lookaside buffer

An access to a mapped address that no entry covers faults, and the handler is told the key of
the address in the upper entry word. Once the lower entry word is written and the two are
stored in some slot, the access succeeds: the new entry covers the key, and no other does.

The argument follows three facts through the run of the handler, whatever else it does: the
key that the fault left in the upper entry word, the entries that did not cover it, and from
the write on the lower entry word. The slot may be any, and so may the search orders, which
only have to be complete.
-/
namespace R3000

/-! ### The fault -/

namespace Core

/-- Addresses are translated by the lookaside buffer, and no entry of it covers this one. -/
def Uncovered (core : Core) (address : Word) : Prop :=
  ∃ buffer, core.mmu = .tlb buffer ∧
    ∀ slot, (buffer.entry slot).covers (searchKey address core.system.entryHi) = false

/-- The trap of an access to an address that no entry covers. -/
def missTrap (core : Core) (address : Word) (intent : Intent) : Trap :=
  .tlbFault address (searchKey address core.system.entryHi) intent (Mmu.faultKind address .miss)

section

variable {core : Core} {address : Word} {intent : Intent} {user : Bool}

theorem resolve_of_uncovered (uncovered : core.Uncovered address)
    (mapped : route user address = .mapped) :
    core.resolve user address intent = .error (core.missTrap address intent) := by
  obtain ⟨buffer, hardware, none⟩ := uncovered
  have miss := Tlb.lookup_of_uncovered none intent
  simp only [resolve, mapped, hardware, Mmu.translate, miss, missTrap]

theorem place_of_uncovered {demand : Demand} (uncovered : core.Uncovered demand.address)
    (aligned : demand.misaligned = false)
    (mapped : route core.userMode demand.address = .mapped) :
    core.place demand = .error (core.missTrap demand.address demand.intent) :=
  place_untranslated aligned (resolve_of_uncovered uncovered mapped)

/-- The key of the address is left in the upper entry word. -/
theorem entryHi_enter_missTrap (core : Core) (address : Word) (intent : Intent) :
    (core.enter (core.missTrap address intent)).1.system.entryHi =
      searchKey address core.system.entryHi := by
  have recorded : (core.enter (core.missTrap address intent)).1.system.entryHi =
      ((core.missTrap address intent).record core.system).entryHi :=
    read_enter_record core _ (by decide)
  rw [recorded, SystemControl.entryHi]
  simp +decide [missTrap, Trap.record, SystemControl.recordTlbFault, SystemControl.read_put]

end

end Core

namespace Cpu

/-- An instruction demands an access. -/
inductive Asks (cpu : Cpu) (word : Word) : Demand → Prop where
  | load {load : Load} (issued : cpu.core.issue cpu.random word = .load load) :
      Asks cpu word load.demand
  | store {store : Store} (issued : cpu.core.issue cpu.random word = .store store) :
      Asks cpu word store.demand

/-- An operation comes to an access: the fetch of a step, the access of the instruction that
it fetched, or that of an instruction executed directly. -/
inductive Attempts {β : Type} [Bus β] (cpu : Cpu) (bus : β) : Operation → Demand → Prop where
  | fetch : Attempts cpu bus .step cpu.core.fetchDemand
  | fetched {word : Word} {fetched : Cpu} {memory : β} {demand : Demand}
      (fetch : (cpu.tick 1).fetch bus = (.ok word, fetched, memory))
      (calm : cpu.interruptDue = false) (asks : fetched.Asks word demand) :
      Attempts cpu bus .step demand
  | direct {word : Word} {demand : Demand} (asks : cpu.Asks word demand) :
      Attempts cpu bus (.execute word) demand

section

variable {β : Type} [Bus β] {cpu : Cpu} {bus : β} {demand : Demand}

theorem executeTrap_of_asks {word : Word} {trap : Trap} (asks : cpu.Asks word demand) (bus : β)
    (unplaced : cpu.core.place demand = .error trap) : cpu.executeTrap bus word = some trap := by
  cases asks with
  | load issued => simp only [executeTrap, issued, loadTrap, unplaced]
  | store issued => simp only [executeTrap, issued, storeTrap, unplaced]

theorem Asks.intent_ne_fetch {word : Word} (asks : cpu.Asks word demand) :
    demand.intent ≠ .fetch := by
  cases asks <;> nofun

/-- The core in which an operation makes an access. The access of its instruction comes after the
fetch of a step, which has moved its search order by then. -/
def accessing (cpu : Cpu) (operation : Operation) (demand : Demand) : Core :=
  if operation = .step ∧ demand.intent ≠ .fetch then cpu.core.mark cpu.core.fetchDemand
  else cpu.core

theorem forgetOrders_accessing (cpu : Cpu) (operation : Operation) (demand : Demand) :
    (cpu.accessing operation demand).forgetOrders = cpu.core.forgetOrders := by
  simp only [accessing]
  split
  · exact Core.forgetOrders_mark _ _
  · rfl

/-- An operation that comes to an access which finds no place leaves for the handler of its trap,
from the state in which it makes the access. -/
theorem operate_of_unplaced {operation : Operation} {trap : Trap}
    (attempts : cpu.Attempts bus operation demand)
    (unplaced : cpu.core.place demand = .error trap) :
    ∃ memory : β,
      Closes ({ cpu.during operation with core := cpu.accessing operation demand }.trap memory trap)
        (cpu.operate bus operation) := by
  cases attempts with
  | fetch =>
    have fetch : (cpu.tick 1).fetch bus = (.error trap, cpu.tick 1, bus) := by
      rw [fetch_eq]
      simp only [tick, unplaced]
    have before : cpu.accessing .step cpu.core.fetchDemand = cpu.core :=
      if_neg fun both => both.2 rfl
    rw [before, operate, step_of_fetch_error fetch]
    exact ⟨bus, .onward⟩
  | @fetched word fetched memory _ fetch calm asks =>
    have before : cpu.accessing .step demand = cpu.core.mark cpu.core.fetchDemand :=
      if_pos ⟨rfl, asks.intent_ne_fetch⟩
    have reached := fetch_of_ok fetch
    -- The fetch has not changed where the access goes.
    have refused : fetched.core.place demand = .error trap := by
      rw [reached]
      exact (cpu.core.place_mark _ _).trans unplaced
    obtain ⟨after, trapped⟩ := execute_of_trap (executeTrap_of_asks asks memory refused)
    rw [Core.marked_of_not_refused (Core.refused_of_place unplaced)] at trapped
    rw [before, operate, step_of_execute fetch calm, trapped, reached]
    exact ⟨after, .onward⟩
  | @direct word _ asks =>
    have before : cpu.accessing (.execute word) demand = cpu.core :=
      if_neg fun both => Operation.noConfusion both.1
    obtain ⟨after, trapped⟩ := execute_of_trap (executeTrap_of_asks asks bus unplaced)
    rw [Core.marked_of_not_refused (Core.refused_of_place unplaced)] at trapped
    rw [before, operate, trapped]
    exact ⟨after, .here⟩

/-- The fault reports one exception, leaves the key of the address in the upper entry word,
and changes no entry. -/
theorem operate_of_miss {operation : Operation}
    (attempts : cpu.Attempts bus operation demand) (aligned : demand.misaligned = false)
    (uncovered : cpu.core.Uncovered demand.address)
    (mapped : route cpu.core.userMode demand.address = .mapped) :
    entered (cpu.operate bus operation).notes =
        [(cpu.core.missTrap demand.address demand.intent).exception] ∧
      (cpu.operate bus operation).cpu.core.system.entryHi =
        searchKey demand.address cpu.core.system.entryHi ∧
      (cpu.operate bus operation).cpu.core.mmu.forgetOrders = cpu.core.mmu.forgetOrders := by
  obtain ⟨memory, closes⟩ :=
    operate_of_unplaced attempts (Core.place_of_uncovered uncovered aligned mapped)
  have same := cpu.forgetOrders_accessing operation demand
  have sameSystem := Core.system_of_forgetOrders same
  refine ⟨?_, ?_, ?_⟩
  · rw [closes.notes]
    exact entered_trap _ _ _
  · have key := (cpu.accessing operation demand).entryHi_enter_missTrap demand.address demand.intent
    rw [closes.system]
    simp only [Core.missTrap, sameSystem] at key
    exact key
  · have mapping := Core.mapping_of_forgetOrders same
    rw [closes.mmu]
    exact mapping

end

/-! ### The handler -/

/-- A run that leaves the upper entry word and the entries as they are. -/
structure Undisturbed (start stop : Cpu) : Prop where
  run : Leads (fun _ => True) start stop
  key : stop.core.system.entryHi = start.core.system.entryHi
  mapping : stop.core.mmu.forgetOrders = start.core.mmu.forgetOrders

/-- The processor executes an instruction word, which it has fetched or was given. -/
inductive Runs {β : Type} [Bus β] (cpu : Cpu) (bus : β) (word : Word) : Cpu → Prop where
  | fetched {fetched : Cpu} {memory : β}
      (fetch : (cpu.tick 1).fetch bus = (.ok word, fetched, memory))
      (calm : cpu.interruptDue = false) : Runs cpu bus word (cpu.step bus).cpu
  | given : Runs cpu bus word (cpu.execute bus word).cpu

/-- The program may use coprocessor 0. -/
def Privileged (cpu : Cpu) : Prop := cpu.core.userMode = false ∨ cpu.core.unitUsable 0 = true

/-- A word is written to the lower entry word, by the host or by the program. -/
inductive WritesEntryLo (low : Word) (cpu : Cpu) : Cpu → Prop where
  | host : WritesEntryLo low cpu (cpu.setSystemReg 2 low).1
  | program {β : Type} [Bus β] (bus : β) {word : Word} {rt : RegNum} {after : Cpu}
      (runs : cpu.Runs bus word after)
      (decoded : decode word = .system (.moveTo rt SystemControl.entryLoReg))
      (privileged : cpu.Privileged) (value : cpu.core.reg rt = low) : WritesEntryLo low cpu after

/-- The program stores the entry words in a slot: the one that the index names, or a random
one. -/
inductive StoresEntry (cpu : Cpu) : Cpu → Prop where
  | program {β : Type} [Bus β] (bus : β) {word : Word} {op : TlbOp} {after : Cpu}
      (runs : cpu.Runs bus word after) (decoded : decode word = .system (.tlb op))
      (stores : op = .writeIndexed ∨ op = .writeRandom) (privileged : cpu.Privileged) :
      StoresEntry cpu after

/-- What the handler of a refill does: it writes the lower entry word and stores the entry.
Before, between and after it may do anything that leaves the entry words and the entries. -/
def Refills (start : Cpu) (low : Word) (stop : Cpu) : Prop :=
  ∃ ready loaded armed filled, Undisturbed start ready ∧ WritesEntryLo low ready loaded ∧
    Undisturbed loaded armed ∧
      armed.core.system.read SystemControl.entryLoReg =
        loaded.core.system.read SystemControl.entryLoReg ∧
      StoresEntry armed filled ∧ Undisturbed filled stop

section

variable {β : Type} [Bus β] {cpu after : Cpu} {bus : β} {word : Word}

theorem Runs.leads (runs : cpu.Runs bus word after) : Leads (fun _ => True) cpu after := by
  have operated (operation : Operation) :
      Leads (fun _ => True) cpu (cpu.operate bus operation).cpu := .operate bus trivial .refl
  cases runs with
  | fetched fetch calm => exact operated .step
  | given => exact operated (.execute word)

/-- An instruction that runs is issued from the state of the processor up to the search
orders. When it completes, the system registers and the mapping hardware are as it left them. -/
theorem Runs.issued (runs : cpu.Runs bus word after) :
    ∃ (core : Core) (random : Fin 64), core.forgetOrders = cpu.core.forgetOrders ∧
      ∀ {next notes extra}, core.issue random word = .retire next notes extra →
        after.core.system = next.system ∧ after.core.mmu = next.mmu := by
  cases runs with
  | @fetched fetched memory fetch calm =>
    have touched : fetched.core.forgetOrders = cpu.core.forgetOrders := by
      rw [fetch_of_ok fetch]
      exact Core.forgetOrders_mark _ _
    refine ⟨fetched.core, fetched.random, touched, ?_⟩
    intro next notes extra issued
    rw [step_of_execute fetch calm]
    simp only [execute, issued]
    exact ⟨rfl, rfl⟩
  | given =>
    refine ⟨cpu.core, cpu.random, rfl, ?_⟩
    intro next notes extra issued
    simp only [execute, issued]
    exact ⟨rfl, rfl⟩

end

end Cpu

namespace Core

/-- A system control instruction that has the permission is issued as what it is. -/
theorem issue_system {core other : Core} (random : Fin 64) {word : Word} {op : SystemOp}
    (decoded : decode word = .system op)
    (permitted : other.userMode = false ∨ other.unitUsable 0 = true)
    (same : core.forgetOrders = other.forgetOrders) :
    (core.userMode && !core.unitUsable 0) = false ∧
      core.issue random word = core.issueSystem random word op := by
  have sameSystem := system_of_forgetOrders same
  refine ⟨?_, ?_⟩
  · simp only [userMode, unitUsable, sameSystem] at permitted ⊢
    rcases permitted with kernel | usable
    · rw [kernel]
      rfl
    · rw [usable]
      simp
  · simp only [issue, decoded, issueInstr]

/-- Writing the lower entry word stores all of it but its low byte. -/
theorem writeSystem_entryLo {core : Core} (buffered : core.mmu.hasBuffer = true) (low : Word) :
    (core.writeSystem 2 low).1.system.read SystemControl.entryLoReg =
        low &&& SystemControl.entryLoMask ∧
      (core.writeSystem 2 low).1.system.entryHi = core.system.entryHi := by
  have number : Registers.select 2 = SystemControl.entryLoReg := by decide
  have written : (core.writeSystem 2 low).1.system =
      core.system.put SystemControl.entryLoReg (low &&& SystemControl.entryLoMask) := by
    simp +decide [writeSystem, SystemControl.write, SystemControl.writtenValue, number, buffered]
  rw [written]
  constructor
  · simp [SystemControl.read_put]
  · simp +decide [SystemControl.entryHi, SystemControl.read_put]

end Core

namespace Cpu

theorem WritesEntryLo.leads {low : Word} {cpu after : Cpu} (writes : WritesEntryLo low cpu after) :
    Leads (fun _ => True) cpu after := by
  cases writes with
  | host =>
    -- The host needs no memory for this, so any will do.
    have memory : CacheRam := ⟨#[]⟩
    have operated : Leads (fun _ => True) cpu (cpu.operate memory (.setSystemReg 2 low)).cpu :=
      .operate memory trivial .refl
    exact operated
  | program bus runs decoded privileged value => exact runs.leads

/-- Writing the lower entry word stores all of it but its low byte, and changes neither the
upper entry word nor the entries. -/
theorem WritesEntryLo.effect {low : Word} {cpu after : Cpu}
    (writes : WritesEntryLo low cpu after) (buffered : cpu.core.mmu.hasBuffer = true) :
    after.core.system.read SystemControl.entryLoReg = low &&& SystemControl.entryLoMask ∧
      after.core.system.entryHi = cpu.core.system.entryHi ∧
      after.core.mmu.forgetOrders = cpu.core.mmu.forgetOrders := by
  cases writes with
  | host =>
    obtain ⟨stored, key⟩ := Core.writeSystem_entryLo buffered low
    have sameMmu : (cpu.setSystemReg 2 low).1.core.mmu = cpu.core.mmu :=
      Core.mmu_writeSystem cpu.core 2 low
    exact ⟨stored, key, congrArg Mmu.forgetOrders sameMmu⟩
  | @program _ _ bus word rt _ runs decoded privileged value =>
    obtain ⟨core, random, same, completes⟩ := runs.issued
    obtain ⟨allowed, issued⟩ := Core.issue_system random decoded privileged same
    have parts := Core.eq_of_forgetOrders same
    have mapping := Core.mapping_of_forgetOrders same
    have stillBuffered : core.mmu.hasBuffer = true := by
      rw [Mmu.hasBuffer_of_forgetOrders mapping]
      exact buffered
    have retires : core.issue random word =
        .retire (core.writeSystem 2 low).1 (core.writeSystem 2 low).2 0 := by
      have sameValue : core.reg rt = low := by
        rw [parts]
        exact value
      simp only [issued, Core.issueSystem, allowed, sameValue]
      rfl
    obtain ⟨sameSystem, sameMmu⟩ := completes retires
    obtain ⟨stored, key⟩ := Core.writeSystem_entryLo stillBuffered low
    have oldKey : core.system.entryHi = cpu.core.system.entryHi := by rw [parts]
    rw [sameSystem, sameMmu, Core.mmu_writeSystem]
    exact ⟨stored, key.trans oldKey, mapping⟩

theorem StoresEntry.leads {cpu after : Cpu} (stores : StoresEntry cpu after) :
    Leads (fun _ => True) cpu after := by
  cases stores with
  | program bus runs decoded stores privileged => exact runs.leads

/-- Storing the entry words changes one slot, and the upper entry word stays. -/
theorem StoresEntry.effect {cpu after : Cpu} (stores : StoresEntry cpu after)
    (buffered : cpu.core.mmu.hasBuffer = true) :
    after.core.system.entryHi = cpu.core.system.entryHi ∧
      ∃ slot, after.core.mmu.forgetOrders =
        cpu.core.mmu.forgetOrders.mapBuffer (·.setEntry slot cpu.core.system.entry) := by
  cases stores with
  | @program _ _ bus word op _ runs decoded stores privileged =>
    obtain ⟨core, random, same, completes⟩ := runs.issued
    obtain ⟨allowed, issued⟩ := Core.issue_system random decoded privileged same
    have sameSystem := Core.system_of_forgetOrders same
    have mapping := Core.mapping_of_forgetOrders same
    obtain ⟨buffer, present⟩ : ∃ buffer, core.mmu.buffer? = some buffer := by
      rw [← Mmu.hasBuffer_of_forgetOrders mapping] at buffered
      exact Option.isSome_iff_exists.mp buffered
    -- Which slot it is does not matter for what follows.
    obtain ⟨slot, random, retires⟩ : ∃ slot isRandom, core.issue random word =
        .retire (core.writeSlot slot isRandom).1 (core.writeSlot slot isRandom).2 0 := by
      simp only [issued, Core.issueSystem, allowed, present]
      rcases stores with rfl | rfl
      · exact ⟨core.system.indexedSlot, false, rfl⟩
      · exact ⟨random, true, rfl⟩
    obtain ⟨systemAfter, mmuAfter⟩ := completes retires
    refine ⟨?_, slot, ?_⟩
    · rw [systemAfter, ← sameSystem]
      rfl
    · rw [mmuAfter, ← sameSystem, ← mapping]
      exact Mmu.forgetOrders_setEntry core.mmu slot core.system.entry

end Cpu

/-! ### The entry that was stored -/

theorem searchKey_searchKey (address entryHi : Word) :
    searchKey address (searchKey address entryHi) = searchKey address entryHi := by
  -- The page lies outside the address space, so only the latter is taken from the second word.
  have apart : pageMask &&& spaceMask = 0 := by decide
  have space : searchKey address entryHi &&& spaceMask = entryHi &&& spaceMask := by
    simp only [searchKey]
    rw [BitVec.and_or_distrib_right, BitVec.and_assoc, apart, BitVec.and_assoc, BitVec.and_self]
    simp
  calc
    searchKey address (searchKey address entryHi) =
        (address &&& pageMask) ||| (searchKey address entryHi &&& spaceMask) := rfl
    _ = (address &&& pageMask) ||| (entryHi &&& spaceMask) := by rw [space]
    _ = searchKey address entryHi := rfl

namespace TlbEntry

/-- The upper word agrees with itself under every mask, so it does not matter whether the
entry is global. -/
theorem covers_self (entry : TlbEntry) : entry.covers entry.hi = true := by
  simp [covers]

/-- What a program writes to the lower entry word is stored as far as an entry uses it. -/
theorem answer_of_written {low hi : Word} {intent : Intent} (valid : hasAny low 0x200 = true)
    (writable : intent = .write → hasAny low 0x400 = true) :
    TlbEntry.answer ⟨hi, low &&& SystemControl.entryLoMask⟩ intent =
      .hit (low &&& 0xfffff000) := by
  have stored : low &&& SystemControl.entryLoMask &&& SystemControl.entryLoMask =
      low &&& SystemControl.entryLoMask := by
    rw [BitVec.and_assoc, BitVec.and_self]
  have storedValid : hasAny (low &&& SystemControl.entryLoMask) 0x200 = true := by
    rw [hasAny_of_subset stored (by decide)]
    exact valid
  have storedDirty : intent = .write → hasAny (low &&& SystemControl.entryLoMask) 0x400 = true := by
    intro write
    rw [hasAny_of_subset stored (by decide)]
    exact writable write
  have storedFrame : low &&& SystemControl.entryLoMask &&& 0xfffff000 = low &&& 0xfffff000 :=
    and_of_subset stored (by decide)
  simp only [answer, TlbEntry.valid, TlbEntry.dirty, frame, validBit, dirtyBit, frameMask,
    storedValid, storedFrame]
  by_cases write : intent = .write
  · simpa [write] using storedDirty write
  · simp [write]

end TlbEntry

namespace Core

/-- When a slot holds an entry for an address that was covered by none, the address is
translated by that entry, wherever the slot stands in the search orders. -/
theorem resolve_of_stored {before core : Core} {address low : Word} {intent : Intent}
    {slot : Fin 64} (uncovered : before.Uncovered address) (complete : core.mmu.Complete)
    (key : core.system.entryHi = searchKey address before.system.entryHi)
    (stored : core.mmu.forgetOrders = before.mmu.forgetOrders.mapBuffer
      (·.setEntry slot ⟨core.system.entryHi, low &&& SystemControl.entryLoMask⟩))
    (valid : hasAny low 0x200 = true) (writable : intent = .write → hasAny low 0x400 = true)
    {user : Bool} (mapped : route user address = .mapped) :
    core.resolve user address intent = .ok ((address &&& 0xfff) ||| (low &&& 0xfffff000)) := by
  obtain ⟨buffer, hardware, none⟩ := uncovered
  -- The hardware is a buffer whose entries are the old ones but for the stored one.
  rw [hardware, ← Mmu.forgetOrders_setEntry] at stored
  obtain ⟨filled, present, entries⟩ := Mmu.tlb_of_forgetOrders stored
  have entryOf (other : Fin 64) : filled.entry other =
      if other = slot then ⟨core.system.entryHi, low &&& SystemControl.entryLoMask⟩
      else buffer.entry other := by
    rw [Tlb.entry_of_resetOrders entries, Tlb.entry_setEntry]
  have sameKey : searchKey address core.system.entryHi = core.system.entryHi := by
    rw [key, searchKey_searchKey]
  have covers : (filled.entry slot).covers core.system.entryHi = true := by
    rw [entryOf, if_pos rfl]
    exact TlbEntry.covers_self _
  have only : ∀ other, (filled.entry other).covers core.system.entryHi = true → other = slot := by
    intro other covering
    by_cases same : other = slot
    · exact same
    · -- The other slots are as they were when none of them covered the key.
      rw [entryOf, if_neg same, key, none other] at covering
      cases covering
  have answered := Tlb.lookup_of_unique (complete filled (by rw [present]; rfl)) covers only intent
  rw [entryOf, if_pos rfl, TlbEntry.answer_of_written valid writable] at answered
  simp only [resolve, mapped, present, Mmu.translate, sameKey, answered]
  rfl

end Core

namespace Cpu

section

variable {β : Type} [Bus β]

/-- Refilling makes progress. In any state that can be reached, an access to a mapped address
that no entry covers faults. After the handler has written a valid lower entry word, writable
if the access is a write, and stored the entry, the same access is translated in every mode
that may make it, to the offset in the frame of that word. -/
theorem refill_progress {cpu : Cpu} {buffer : Tlb} {bus : β} {operation : Operation}
    {demand : Demand} (reached : cpu.Reachable) (hardware : cpu.core.mmu = .tlb buffer)
    (attempts : cpu.Attempts bus operation demand) (aligned : demand.misaligned = false)
    (mapped : route cpu.core.userMode demand.address = .mapped)
    (unmatched : ∀ slot,
      (buffer.entry slot).covers (searchKey demand.address cpu.core.system.entryHi) = false) :
    entered (cpu.operate bus operation).notes =
        [(cpu.core.missTrap demand.address demand.intent).exception] ∧
      ∀ low retry, hasAny low 0x200 = true →
        (demand.intent = .write → hasAny low 0x400 = true) →
          (cpu.operate bus operation).cpu.Refills low retry →
            ∀ user, route user demand.address = .mapped →
              retry.core.resolve user demand.address demand.intent =
                .ok ((demand.address &&& 0xfff) ||| (low &&& 0xfffff000)) := by
  have uncovered : cpu.core.Uncovered demand.address := ⟨buffer, hardware, unmatched⟩
  obtain ⟨reported, faultKey, faultEntries⟩ :=
    operate_of_miss attempts aligned uncovered mapped
  refine ⟨reported, ?_⟩
  intro low retry valid writable refills user accessible
  obtain ⟨ready, loaded, armed, filled, toReady, writes, toArmed, keptLow, stores, toRetry⟩ :=
    refills
  -- The hardware stays a buffer that is searched, with the same entries until one is stored.
  have readyEntries : ready.core.mmu.forgetOrders = cpu.core.mmu.forgetOrders :=
    toReady.mapping.trans faultEntries
  have buffered : ready.core.mmu.hasBuffer = true := by
    rw [Mmu.hasBuffer_of_forgetOrders readyEntries, hardware]
    rfl
  obtain ⟨loadedLow, loadedKey, loadedEntries⟩ := writes.effect buffered
  have armedEntries : armed.core.mmu.forgetOrders = cpu.core.mmu.forgetOrders :=
    toArmed.mapping.trans (loadedEntries.trans readyEntries)
  have stillBuffered : armed.core.mmu.hasBuffer = true := by
    rw [Mmu.hasBuffer_of_forgetOrders armedEntries, hardware]
    rfl
  obtain ⟨filledKey, slot, filledEntries⟩ := stores.effect stillBuffered
  -- The key of the fault is still in the upper entry word when the access is made again.
  have armedKey : armed.core.system.entryHi =
      searchKey demand.address cpu.core.system.entryHi := by
    rw [toArmed.key, loadedKey, toReady.key, faultKey]
  have retryKey : retry.core.system.entryHi = armed.core.system.entryHi :=
    toRetry.key.trans filledKey
  have stored : armed.core.system.entry =
      ⟨retry.core.system.entryHi, low &&& SystemControl.entryLoMask⟩ := by
    rw [retryKey, ← loadedLow, ← keptLow]
    rfl
  -- Every state on the way is reachable, so the search orders have stayed complete.
  have faulted : (cpu.operate bus operation).cpu.Reachable :=
    reached.leads (.operate bus trivial .refl)
  have complete : retry.core.mmu.Complete :=
    ((((faulted.leads toReady.run).leads writes.leads).leads toArmed.run).leads
      stores.leads).leads toRetry.run |>.complete
  apply Core.resolve_of_stored uncovered complete (retryKey.trans armedKey) _ valid writable
    accessible
  · exact slot
  · rw [toRetry.mapping, filledEntries, armedEntries, stored]

end

theorem Undisturbed.refl (cpu : Cpu) : Undisturbed cpu cpu := ⟨.refl, rfl, rfl⟩

/-- A processor that has been built and has not run yet. -/
def fresh : Cpu := (Cpu.build (.ofModel .r3000A)).1

/-- A load from the second page of user space, at the boot vector. -/
def loadFromUserSpace : Ram where
  base := 0x1fc00000
  order := .big
  faults := []
  data := #[0x8c, 0x01, 0x10, 0x04]

/-- A handler of refills that stores the entry words in a random slot. -/
def storeRandomEntry : Ram where
  base := 0x1fc00100
  order := .big
  faults := []
  data := #[0x42, 0x00, 0x00, 0x06]

/-- The host writes the lower entry word for the handler, its unused bits set. -/
def entryLoWritten : Cpu := ((fresh.operate loadFromUserSpace .step).cpu.setSystemReg 2 0x56ff).1

/-- The load faults, and is translated once the handler has stored the entry. -/
theorem refill_progress_load :
    entered (fresh.operate loadFromUserSpace .step).notes = [.tlbLoad] ∧
      (entryLoWritten.step storeRandomEntry).cpu.core.resolve true 0x1004 .read =
        .ok 0x5004 := by
  have reached : fresh.Reachable := ⟨.ofModel .r3000A, .refl⟩
  have hardware : fresh.core.mmu = .tlb .initial := by rfl
  have attempts : fresh.Attempts loadFromUserSpace .step ⟨.word, 0x1004, true, .read⟩ := by
    have fetch : (fresh.tick 1).fetch loadFromUserSpace =
        (.ok 0x8c011004, fresh.tick 1, loadFromUserSpace) := by rfl
    have issued : (fresh.tick 1).core.issue (fresh.tick 1).random 0x8c011004 =
        .load ⟨.word, 0x1004, true, .unsigned 1⟩ := by rfl
    exact .fetched fetch (by decide +kernel) (.load issued)
  have unmatched : ∀ slot,
      (Tlb.initial.entry slot).covers (searchKey 0x1004 fresh.core.system.entryHi) = false := by
    decide +kernel
  have refills : (fresh.operate loadFromUserSpace .step).cpu.Refills 0x56ff
      (entryLoWritten.step storeRandomEntry).cpu := by
    have fetch : (entryLoWritten.tick 1).fetch storeRandomEntry =
        (.ok 0x42000006, entryLoWritten.tick 1, storeRandomEntry) := by rfl
    have stores : StoresEntry entryLoWritten (entryLoWritten.step storeRandomEntry).cpu :=
      .program storeRandomEntry (.fetched fetch (by decide +kernel)) (by decide) (.inr rfl)
        (.inl (by decide +kernel))
    exact ⟨_, entryLoWritten, entryLoWritten, _, .refl _, .host, .refl _, rfl, stores, .refl _⟩
  obtain ⟨reported, translated⟩ :=
    refill_progress reached hardware attempts (by decide) (by decide +kernel) unmatched
  have kind : (fresh.core.missTrap 0x1004 .read).exception = .tlbLoad := by decide +kernel
  rw [kind] at reported
  exact ⟨reported, translated 0x56ff _ (by decide) nofun refills true (by decide)⟩

end Cpu

end R3000

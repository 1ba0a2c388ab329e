import Mathlib.Data.List.Nodup
import R3000.Proofs.OrderIndependence
import R3000.Proofs.SlotStorage

/-!
# Random slots

The random counter names the fifty-six upper slots in turn, one in each cycle. So a random write
never takes one of the eight lower slots, which only a write by index changes. And a random write
takes one cycle, so fifty-six of them in a row fill all the upper slots, each once, wherever the
counter stood when they began.
-/
namespace R3000

namespace Cpu

/-! ### The counter -/

/-- The slot that the counter names some ticks after it was started. -/
def slotAfter (ticks : Nat) : Fin 64 := ⟨63 - ticks % 56, by omega⟩

theorem random_eq (cpu : Cpu) : cpu.random = slotAfter (cpu.cycles - cpu.randomOrigin) := rfl

theorem le_slotAfter (ticks : Nat) : 8 ≤ (slotAfter ticks).val := by
  simp only [slotAfter]
  omega

theorem le_random (cpu : Cpu) : 8 ≤ cpu.random.val := le_slotAfter _

/-- The slots that the counter names from a tick on. -/
def slotsFrom (ticks count : Nat) : List (Fin 64) :=
  (List.range count).map fun later => slotAfter (ticks + later)

theorem slotsFrom_succ (ticks count : Nat) :
    slotsFrom ticks (count + 1) = slotsFrom ticks count ++ [slotAfter (ticks + count)] := by
  simp only [slotsFrom, List.range_succ, List.map_append, List.map_singleton]

/-- In fifty-six ticks the counter names no slot twice. -/
theorem nodup_slotsFrom (ticks : Nat) : (slotsFrom ticks 56).Nodup := by
  -- Two ticks that name one slot are a multiple of fifty-six apart.
  apply List.Nodup.map_on
  · intro first early second late same
    rw [List.mem_range] at early late
    have sameNumber := congrArg Fin.val same
    simp only [slotAfter] at sameNumber
    omega
  · exact List.nodup_range

/-- In fifty-six ticks the counter names exactly the upper slots. -/
theorem mem_slotsFrom_iff (ticks : Nat) (slot : Fin 64) :
    slot ∈ slotsFrom ticks 56 ↔ 8 ≤ slot.val := by
  simp only [slotsFrom, List.mem_map, List.mem_range]
  constructor
  · rintro ⟨later, -, rfl⟩
    exact le_slotAfter _
  · intro upper
    -- The counter goes on by what is missing to the slot.
    refine ⟨(63 - slot.val + (56 - ticks % 56)) % 56, Nat.mod_lt _ (by decide), ?_⟩
    apply Fin.ext
    simp only [slotAfter]
    omega

theorem count_slotsFrom (ticks : Nat) (slot : Fin 64) :
    (slotsFrom ticks 56).count slot = if 8 ≤ slot.val then 1 else 0 := by
  split
  next upper =>
    have member := (mem_slotsFrom_iff ticks slot).mpr upper
    exact List.count_eq_one_of_mem (nodup_slotsFrom ticks) member
  next lower =>
    exact List.count_eq_zero.mpr fun member => lower ((mem_slotsFrom_iff ticks slot).mp member)

/-- What the register of the counter shows. -/
theorem randomBits (slot : Fin 64) :
    ((BitVec.ofNat 32 slot.val <<< 8).extractLsb' 8 6).toFin = slot := by
  revert slot
  decide

theorem readSystem_random {core : Core} (buffered : core.mmu.hasBuffer = true) (random : Fin 64) :
    ((core.readSystem random SystemControl.randomReg).extractLsb' 8 6).toFin = random := by
  simp only [Core.readSystem, buffered, and_self, if_true]
  exact randomBits random

section

variable {β : Type} [Bus β]

/-! ### Time -/

theorem randomOrigin_execute (cpu : Cpu) (bus : β) (word : Word) :
    (cpu.execute bus word).cpu.randomOrigin = cpu.randomOrigin := by
  cases raised : cpu.executeTrap bus word with
  | some trap =>
    obtain ⟨memory, trapped⟩ := execute_of_trap raised
    rw [trapped]
    rfl
  | none =>
    rcases execute_of_none raised with ⟨next, notes, extra, -, executed⟩ |
      ⟨load, value, memory, -, executed⟩ | ⟨store, icache, dcache, memory, -, executed⟩
    · rw [executed]
      rfl
    · rw [executed]
    · rw [executed]

/-- The counter was never started in the future. -/
theorem randomOrigin_operate_le {cpu : Cpu} (started : cpu.randomOrigin ≤ cpu.cycles) (bus : β)
    (operation : Operation) :
    (cpu.operate bus operation).cpu.randomOrigin ≤ (cpu.operate bus operation).cpu.cycles := by
  have going : (cpu.during operation).randomOrigin ≤ (cpu.during operation).cycles := by
    cases operation with
    | step => exact Nat.le_succ_of_le started
    | _ => exact started
  rcases cpu.operate_courses bus operation with ⟨word, start, memory, ran⟩ |
    ⟨trap, core, memory, left⟩ | host
  -- An instruction takes time and does not start the counter again.
  · obtain ⟨cycles, origin⟩ := ran.closes.clock
    have later := start.cycles_execute_le memory word
    rw [cycles, origin, randomOrigin_execute]
    rw [ran.begins] at later ⊢
    exact Nat.le_trans going later
  · obtain ⟨cycles, origin⟩ := left.closes.clock
    rw [cycles, origin]
    exact going
  · cases operation with
    | step | execute word => cases host
    | reset =>
      -- A reset starts the counter now, or not at all.
      change (if _ then cpu.cycles else cpu.randomOrigin) ≤ cpu.cycles
      split
      · exact Nat.le_refl _
      · exact started
    | _ => exact started

theorem Reachable.started {cpu : Cpu} (reached : cpu.Reachable) :
    cpu.randomOrigin ≤ cpu.cycles := by
  obtain ⟨config, run⟩ := reached
  apply run.keeps (P := fun cpu => cpu.randomOrigin ≤ cpu.cycles)
  · intro β _ cpu bus operation _ started
    exact randomOrigin_operate_le started bus operation
  · change (if _ then 0 else 0) ≤ 0
    split <;> exact Nat.le_refl _

/-! ### The lower slots -/

/-- What a slot holds, if there are slots. -/
def slot? (cpu : Cpu) (slot : Fin 64) : Option TlbEntry := cpu.buffer?.map (·.entry slot)

theorem slot?_of_holds {cpu : Cpu} {entries : Fin 64 → TlbEntry}
    (holds : cpu.core.mmu.Holds entries) (slot : Fin 64) :
    cpu.slot? slot = some (entries slot) := by
  obtain ⟨buffer, present, stored⟩ := holds
  simp only [slot?, buffer?, present, Option.map_some, stored]

/-- The operation executes an instruction that writes this slot by its index, from bits 13 to 8 of
the index register. -/
def WritesByIndex (cpu : Cpu) (bus : β) (operation : Operation) (slot : Fin 64) : Prop :=
  slotOf (cpu.systemReg 0) = slot ∧ entered (cpu.operate bus operation).notes = [] ∧
    ∃ word, cpu.executed? bus operation = some word ∧ decode word = .system (.tlb .writeIndexed)

/-- A lower slot is stored only by an instruction that writes it by index. -/
theorem writesByIndex_of_stored {cpu : Cpu} {bus : β} {operation : Operation} {slot : Fin 64}
    (stored : cpu.storedSlot? bus operation = some slot) (lower : slot.val < 8) :
    cpu.WritesByIndex bus operation slot := by
  rcases cpu.operate_courses bus operation with ⟨word, start, memory, ran⟩ |
    ⟨trap, core, memory, left⟩ | host
  · rw [ran.storedSlot?] at stored
    rcases Core.slotWritten?_cases stored with ⟨decoded, indexed⟩ | ⟨-, named⟩
    · exact ⟨indexed, ran.quiet, word, ran.executed, decoded⟩
    · -- The counter does not name a lower slot.
      have upper : 8 ≤ slot.val := named ▸ le_random _
      exact absurd lower (Nat.not_lt_of_le upper)
  · rw [left.storedSlot?] at stored
    cases stored
  · rw [storedSlot?_of_host host] at stored
    cases stored

/-- A run of any operations that do not write the slot by its index. The memory may be a different
one at every operation. -/
inductive Spares (slot : Fin 64) (start : Cpu) : Cpu → Prop where
  | refl : Spares slot start start
  | operate {β : Type} [Bus β] {cpu : Cpu} (bus : β) (operation : Operation)
      (before : Spares slot start cpu) (spares : ¬ cpu.WritesByIndex bus operation slot) :
      Spares slot start (cpu.operate bus operation).cpu

theorem Spares.holds {slot : Fin 64} {start cpu : Cpu} (run : Spares slot start cpu)
    (lower : slot.val < 8) {entries : Fin 64 → TlbEntry} (holds : start.core.mmu.Holds entries) :
    ∃ later, cpu.core.mmu.Holds later ∧ later slot = entries slot := by
  -- By induction on the run, which may store entries in all other slots.
  induction run with
  | refl => exact ⟨entries, holds, rfl⟩
  | @operate β _ cpu bus operation before spares ih =>
    obtain ⟨later, held, same⟩ := ih
    have unstored : cpu.storedSlot? bus operation ≠ some slot := fun stored =>
      spares (writesByIndex_of_stored stored lower)
    refine ⟨_, holds_operate held bus operation, ?_⟩
    rw [if_neg unstored]
    exact same

/-! ### Random writes in a row -/

/-- The step executes a random write and enters no exception. -/
def StoresAtRandom (cpu : Cpu) (bus : β) : Prop :=
  entered (cpu.step bus).notes = [] ∧
    ∃ word, cpu.executed? bus .step = some word ∧ decode word = .system (.tlb .writeRandom)

/-- Such a step takes one cycle, stores the entry registers in the slot that the counter names, and
leaves them as they are. -/
theorem StoresAtRandom.step {cpu : Cpu} {bus : β} (stores : cpu.StoresAtRandom bus) :
    cpu.storedSlot? bus .step = some (cpu.tick 1).random ∧
      (cpu.step bus).cpu.cycles = cpu.cycles + 1 ∧
      (cpu.step bus).cpu.randomOrigin = cpu.randomOrigin ∧
      (cpu.step bus).cpu.core.system = cpu.core.system := by
  obtain ⟨quiet, word, executed, decoded⟩ := stores
  obtain ⟨start, memory, ran⟩ := ran_of_executed executed quiet
  obtain ⟨next, notes, extra, issued, done⟩ := retired_of_none ran.silent decoded
  obtain ⟨buffer, -, found⟩ := Core.issueTlb_of_issueSystem issued
  cases found
  obtain ⟨cycles, origin⟩ := ran.closes.clock
  have system := ran.closes.system
  have begun := ran.begins
  rw [done] at cycles origin system
  refine ⟨?_, ?_, ?_, ?_⟩
  · rw [ran.storedSlot?, decoded]
    rfl
  · calc
      (cpu.step bus).cpu.cycles = start.cycles := cycles
      _ = cpu.cycles + 1 := by rw [begun]; rfl
  · calc
      (cpu.step bus).cpu.randomOrigin = start.randomOrigin := origin
      _ = cpu.randomOrigin := by rw [begun]; rfl
  · exact system.trans ran.system

/-- Steps that each execute a random write and enter no exception: how many, and the slots that are
stored in their course, in order. The memory may be a different one at every step. -/
inductive RandomWrites (start : Cpu) : Nat → List (Fin 64) → Cpu → Prop where
  | none : RandomWrites start 0 [] start
  | step {β : Type} [Bus β] {count : Nat} {slots : List (Fin 64)} {cpu : Cpu} (bus : β)
      (before : RandomWrites start count slots cpu) (stores : cpu.StoresAtRandom bus) :
      RandomWrites start (count + 1) (slots ++ (cpu.storedSlot? bus .step).toList)
        (cpu.step bus).cpu

section

variable {start cpu : Cpu} {count : Nat} {slots : List (Fin 64)}

/-- Random writes in a row take the slots that the counter names in as many ticks. -/
theorem RandomWrites.slots_eq (run : start.RandomWrites count slots cpu)
    (started : start.randomOrigin ≤ start.cycles) :
    slots = slotsFrom (start.cycles - start.randomOrigin + 1) count ∧
      cpu.cycles = start.cycles + count ∧ cpu.randomOrigin = start.randomOrigin ∧
      cpu.core.system = start.core.system := by
  -- By induction on the run: every write takes one tick.
  induction run with
  | none => exact ⟨rfl, rfl, rfl, rfl⟩
  | @step β _ count slots cpu bus before stores ih =>
    obtain ⟨taken, cycles, origin, system⟩ := ih
    obtain ⟨stored, ticked, kept, same⟩ := stores.step
    have next : (cpu.tick 1).random =
        slotAfter (start.cycles - start.randomOrigin + 1 + count) := by
      rw [random_eq]
      apply congrArg slotAfter
      simp only [tick, cycles, origin]
      omega
    refine ⟨?_, ?_, kept.trans origin, same.trans system⟩
    · rw [stored, next, taken, slotsFrom_succ]
      rfl
    · rw [ticked, cycles]
      omega

/-- The slots that were written hold the entry registers, and the others what they held. -/
theorem RandomWrites.holds (run : start.RandomWrites count slots cpu)
    (started : start.randomOrigin ≤ start.cycles) {entries : Fin 64 → TlbEntry}
    (holds : start.core.mmu.Holds entries) :
    ∃ later, cpu.core.mmu.Holds later ∧
      (∀ slot ∈ slots, later slot = start.core.system.entry) ∧
      ∀ slot, slot ∉ slots → later slot = entries slot := by
  -- By induction on the run. All writes store the same entry, as none of them changes it.
  induction run with
  | none =>
    refine ⟨entries, holds, ?_, fun _ _ => rfl⟩
    intro slot member
    cases member
  | @step β _ count slots cpu bus before stores ih =>
    obtain ⟨later, held, written, others⟩ := ih
    obtain ⟨-, -, -, system⟩ := before.slots_eq started
    obtain ⟨stored, -⟩ := stores.step
    refine ⟨_, holds_operate held bus .step, ?_, ?_⟩ <;>
      simp only [stored, system, Option.toList_some, List.mem_append, List.mem_singleton,
        Option.some.injEq]
    · rintro slot (earlier | rfl)
      · rw [written slot earlier, ite_self]
      · exact if_pos rfl
    · intro slot missing
      obtain ⟨notEarlier, notNow⟩ := not_or.mp missing
      rw [if_neg (Ne.symm notNow)]
      exact others slot notEarlier

end

/-- Steps on one memory are such a run when each of them stores at random. -/
theorem RandomWrites.of_steps {cpu : Cpu} {bus : β} {count : Nat}
    (each : ∀ earlier < count,
      (cpu.steps bus earlier).cpu.StoresAtRandom (cpu.steps bus earlier).bus) :
    ∃ slots, cpu.RandomWrites count slots (cpu.steps bus count).cpu := by
  induction count with
  | zero => exact ⟨[], .none⟩
  | succ count ih =>
    have before : ∀ earlier < count,
        (cpu.steps bus earlier).cpu.StoresAtRandom (cpu.steps bus earlier).bus :=
      fun earlier early => each earlier (Nat.lt_succ_of_lt early)
    obtain ⟨slots, run⟩ := ih before
    exact ⟨_, .step _ run (each count (Nat.lt_succ_self count))⟩

/-- A program that moves the register of the counter into another one finds the slot of that cycle
in it. -/
theorem random_of_moveFrom {cpu : Cpu} {bus : β} {operation : Operation} {word : Word} {rt : RegNum}
    (buffered : cpu.core.mmu.hasBuffer = true)
    (executed : cpu.executed? bus operation = some word)
    (quiet : entered (cpu.operate bus operation).notes = [])
    (decoded : decode word = .system (.moveFrom rt SystemControl.randomReg)) (notZero : rt ≠ 0) :
    (((cpu.operate bus operation).cpu.core.reg rt).extractLsb' 8 6).toFin =
      cpu.randomDuring operation := by
  obtain ⟨start, memory, ran⟩ := ran_of_executed executed quiet
  obtain ⟨next, notes, extra, issued, done⟩ := retired_of_none ran.silent decoded
  have stillBuffered : start.core.mmu.hasBuffer = true := by
    rw [Mmu.hasBuffer_of_forgetOrders (Core.mapping_of_forgetOrders ran.same)]
    exact buffered
  have registers := ran.closes.registers
  rw [done] at registers
  cases Core.issueSystem_completes issued
  -- The register is not stored anywhere: it is made up from the slot when it is read.
  have moved : (cpu.operate bus operation).cpu.core.reg rt =
      start.core.readSystem start.random SystemControl.randomReg := by
    rw [Core.reg, registers]
    exact (Registers.read_write _ _ _ _).trans (if_pos ⟨rfl, notZero⟩)
  rw [moved, readSystem_random stillBuffered, ran.random]

end

/-- The random counter covers exactly the upper slots. On a processor with a lookaside buffer, its
register shows a slot from 8 on, and a random write takes the slot that it shows in that cycle. A
run of any operations, with any writes to that register, changes a slot below 8 only by an
instruction that writes it by index. And fifty-six steps in a row that all execute a random write
without an exception store each slot from 8 on exactly once, and no other. -/
theorem random_covers_upper {cpu : Cpu} (reached : cpu.Reachable)
    (buffered : cpu.core.mmu.hasBuffer = true) :
    (8 ≤ cpu.random.val ∧ ((cpu.systemReg 1).extractLsb' 8 6).toFin = cpu.random) ∧
      (∀ {β : Type} [Bus β] (bus : β) (operation : Operation) (word : Word),
        let after := cpu.operate bus operation
        cpu.executed? bus operation = some word → entered after.notes = [] →
          8 ≤ (cpu.randomDuring operation).val ∧
            (decode word = .system (.tlb .writeRandom) →
              cpu.storedSlot? bus operation = some (cpu.randomDuring operation)) ∧
            ∀ rt, rt ≠ 0 → decode word = .system (.moveFrom rt 1) →
              ((after.cpu.core.reg rt).extractLsb' 8 6).toFin = cpu.randomDuring operation) ∧
      (∀ (slot : Fin 64) (stop : Cpu), slot.val < 8 → Spares slot cpu stop →
        stop.slot? slot = cpu.slot? slot) ∧
      ∀ (slots : List (Fin 64)) (stop : Cpu), cpu.RandomWrites 56 slots stop → ∀ slot,
        slots.count slot = (if 8 ≤ slot.val then 1 else 0) ∧
          stop.slot? slot =
            if 8 ≤ slot.val then some cpu.core.system.entry else cpu.slot? slot := by
  obtain ⟨entries, holds⟩ := Mmu.holds_of_hasBuffer buffered
  refine ⟨⟨cpu.le_random, readSystem_random buffered _⟩, ?_, ?_, ?_⟩
  · intro β _ bus operation word after executed quiet
    refine ⟨le_random _, ?_, ?_⟩
    · intro decoded
      obtain ⟨start, memory, ran⟩ := ran_of_executed executed quiet
      rw [ran.storedSlot?, decoded]
      rfl
    · intro rt notZero decoded
      exact random_of_moveFrom buffered executed quiet decoded notZero
  · intro slot stop lower run
    obtain ⟨later, held, same⟩ := run.holds lower holds
    rw [slot?_of_holds held, slot?_of_holds holds, same]
  · intro slots stop run slot
    obtain ⟨taken, -⟩ := run.slots_eq reached.started
    constructor
    · rw [taken, count_slotsFrom]
    · obtain ⟨later, held, written, others⟩ := run.holds reached.started holds
      rw [slot?_of_holds held, slot?_of_holds holds]
      have upper_iff : slot ∈ slots ↔ 8 ≤ slot.val := taken ▸ mem_slotsFrom_iff _ slot
      split
      next upper => rw [written slot (upper_iff.mpr upper)]
      next lower => rw [others slot (mt upper_iff.mp lower)]

/-- A memory that shows the word of a random write at every address. -/
def randomWrites : CacheRam := ⟨#[0x42, 0x00, 0x00, 0x06]⟩

/-- A host has written the entry registers, and something to the register of the counter. -/
def filling : Cpu :=
  (Cpu.build (.ofModel .r3000A)).1.operateAll randomWrites
    [.setSystemReg 10 0x1000, .setSystemReg 2 0x2600, .setSystemReg 1 0x0500]

/-- Fifty-six steps fill the upper slots, and leave the lower ones empty. -/
theorem random_covers_upper_filling :
    filling.random = 63 ∧ ((filling.systemReg 1).extractLsb' 8 6).toFin = filling.random ∧
      filling.storedSlot? randomWrites .step = some 62 ∧
      (((filling.execute randomWrites 0x40010800).cpu.core.reg 1).extractLsb' 8 6).toFin = 63 ∧
      (filling.step randomWrites).cpu.slot? 7 = some .empty ∧
      ∃ slots, filling.RandomWrites 56 slots (filling.steps randomWrites 56).cpu ∧
        slots.count 8 = 1 ∧ slots.count 7 = 0 ∧
        (filling.steps randomWrites 56).cpu.slot? 8 = some ⟨0x1000, 0x2600⟩ := by
  have reached : filling.Reachable := ⟨_, Leads.refl.operateAll randomWrites fun _ _ => trivial⟩
  have each : ∀ earlier < 56,
      entered ((filling.steps randomWrites earlier).cpu.step
          (filling.steps randomWrites earlier).bus).notes = [] ∧
        (filling.steps randomWrites earlier).cpu.executed?
          (filling.steps randomWrites earlier).bus .step = some 0x42000006 := by
    decide +kernel
  obtain ⟨slots, run⟩ := RandomWrites.of_steps fun earlier early =>
    ⟨(each earlier early).1, _, (each earlier early).2, by decide⟩
  obtain ⟨⟨-, shown⟩, writes, wired, fills⟩ := random_covers_upper reached rfl
  obtain ⟨-, stored, -⟩ := writes randomWrites .step 0x42000006 (each 0 (by decide)).2
    (each 0 (by decide)).1
  obtain ⟨-, -, moved⟩ := writes randomWrites (.execute 0x40010800) 0x40010800 rfl
    (by decide +kernel)
  have spares : Spares 7 filling (filling.step randomWrites).cpu := by
    apply Spares.operate randomWrites .step .refl
    rintro ⟨-, -, word, executed, decoded⟩
    cases (each 0 (by decide)).2.symm.trans executed
    exact absurd decoded (by decide)
  refine ⟨by decide +kernel, shown, ?_, ?_, ?_, slots, run, ?_, ?_, ?_⟩
  · exact (stored (by decide)).trans (by decide +kernel)
  · exact (moved 1 (by decide) (by decide)).trans (by decide +kernel)
  · exact (wired 7 _ (by decide) spares).trans (by decide +kernel)
  · exact (fills slots _ run 8).1
  · exact (fills slots _ run 7).1
  · exact (fills slots _ run 8).2.trans (by decide +kernel)

end Cpu

end R3000

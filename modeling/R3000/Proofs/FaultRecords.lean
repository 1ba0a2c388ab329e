import R3000.Proofs.Lookups
import R3000.Proofs.ModeStack
import R3000.Proofs.PreciseExceptions
import R3000.Proofs.Refill

/-!
# What a fault of the lookaside buffer records

An access to a mapped address fails because no entry covers its key, or because the entry that
answers is not valid, or because it protects its page from a write. The exception tells the last of
these apart, and in user space the vector tells the first apart. Beyond that a handler probes the
buffer: the fault has left the key of the access where a probe looks for it.

The access went through the slots in its search order and the probe goes through them by their
numbers, so the slot that the probe reports is the one that failed if no other covers the key.
-/
namespace R3000

/-! ### Failing answers -/

namespace TlbEntry

theorem answer_eq_modified_iff {entry : TlbEntry} {intent : Intent} :
    entry.answer intent = .modified ↔
      intent = .write ∧ entry.valid = true ∧ entry.dirty = false := by
  simp only [answer]
  cases entry.valid <;> cases entry.dirty <;> cases intent <;> simp

end TlbEntry

namespace Tlb

/-- A write is kept out by the entry that answers it. -/
def Protects (tlb : Tlb) (key : Word) (intent : Intent) : Prop :=
  intent = .write ∧ ∃ place slot, tlb.FirstAt key .write place slot ∧
    (tlb.entry slot).valid = true ∧ (tlb.entry slot).dirty = false

theorem lookup_eq_modified_iff {tlb : Tlb} {key : Word} {intent : Intent} :
    tlb.lookup key intent = .modified ↔ tlb.Protects key intent := by
  constructor
  · intro failed
    have found : tlb.lookup key intent ≠ .miss := by
      rw [failed]
      nofun
    obtain ⟨place, slot, first⟩ := exists_firstAt_of_lookup found
    rw [lookup_of_firstAt first, TlbEntry.answer_eq_modified_iff] at failed
    obtain ⟨rfl, valid, clean⟩ := failed
    exact ⟨rfl, place, slot, first, valid, clean⟩
  · rintro ⟨rfl, place, slot, first, valid, clean⟩
    rw [lookup_of_firstAt first]
    exact TlbEntry.answer_eq_modified_iff.mpr ⟨rfl, valid, clean⟩

/-- What the index register tells after a probe for the key of an access. -/
structure ProbeTells (tlb : Tlb) (key : Word) (intent : Intent) (index : Word) : Prop where
  missed : index = 0x80000000 ↔ ∀ slot, (tlb.entry slot).covers key = false
  lowest : ∀ slot, (tlb.entry slot).covers key = true →
    (∀ lower < slot, (tlb.entry lower).covers key = false) → index = BitVec.ofNat 32 slot.val <<< 8
  /-- When no two entries cover the key, the slot that answered the access is told. -/
  answering : (∀ slot other, (tlb.entry slot).covers key = true →
      (tlb.entry other).covers key = true → slot = other) →
    ∀ place slot, tlb.FirstAt key intent place slot → index = BitVec.ofNat 32 slot.val <<< 8

theorem probeTells_indexOf (tlb : Tlb) (key : Word) (intent : Intent) :
    tlb.ProbeTells key intent (SystemControl.indexOf (tlb.probe key)) := by
  have lowest : ∀ slot, (tlb.entry slot).covers key = true →
      (∀ lower < slot, (tlb.entry lower).covers key = false) →
        SystemControl.indexOf (tlb.probe key) = BitVec.ofNat 32 slot.val <<< 8 := by
    intro slot covers below
    rw [probe_eq_some_iff.mpr ⟨covers, below⟩]
    rfl
  refine ⟨?_, lowest, ?_⟩
  · -- The number of a slot never reaches the high bit.
    have apart : ∀ slot : Fin 64, SystemControl.indexOf (some slot) ≠ 0x80000000 := by decide
    rw [← probe_eq_none_iff]
    cases tlb.probe key with
    | none => exact ⟨fun _ => rfl, fun _ => rfl⟩
    | some slot => exact ⟨fun same => absurd same (apart slot), nofun⟩
  · intro single place slot first
    apply lowest slot first.covers
    intro lower below
    cases covers : (tlb.entry lower).covers key with
    | false => rfl
    | true =>
      rw [single lower slot covers first.covers] at below
      exact absurd below (Fin.lt_irrefl slot)

end Tlb

/-! ### The trap of a failing access -/

namespace Core

/-- The trap of an access that the lookaside buffer does not translate. -/
def faultTrap (core : Core) (buffer : Tlb) (address : Word) (intent : Intent) : Trap :=
  let key := searchKey address core.system.entryHi
  .tlbFault address key intent (Mmu.faultKind address (buffer.lookup key intent))

/-- The core `after` is at the handler of a fault that an access of the core `before` has met with
in the buffer, and tells what the access was and why it failed. -/
structure FaultTold (before : Core) (buffer : Tlb) (demand : Demand) (exception : Exception)
    (after : Core) : Prop where
  modified : exception = .tlbModified ↔
    buffer.Protects (searchKey demand.address before.system.entryHi) demand.intent
  store : exception = .tlbStore ↔ demand.intent = .write ∧
    ¬ buffer.Protects (searchKey demand.address before.system.entryHi) demand.intent
  load : exception = .tlbLoad ↔ demand.intent ≠ .write
  codeShown : after.system.cause &&& 0x0000007c = exception.code <<< 2
  /-- The vector of refills is for user space, and for keys that no entry covers. -/
  atVector : ∃ refill : Bool,
    after.pc =
      (if hasAny before.system.status 0x00400000 then (if refill then 0xbfc00100 else 0xbfc00180)
      else if refill then 0x80000000 else 0x80000080) ∧
    (refill = true ↔ inUserSpace demand.address = true ∧
      ∀ slot, (buffer.entry slot).covers (searchKey demand.address before.system.entryHi) = false)
  address : after.system.read SystemControl.badAddressReg = demand.address
  key : after.system.entryHi =
    (demand.address &&& 0xfffff000) ||| (before.system.entryHi &&& 0x00000fc0)
  context : after.system.read SystemControl.contextReg =
    (before.system.read SystemControl.contextReg &&& 0xffe00000)
      ||| (demand.address >>> 10 &&& 0x001ffffc)

section

variable {core : Core} {buffer : Tlb} {address : Word} {intent : Intent}

/-- A mapped address that is not translated for the kernel is not translated for a program. -/
theorem resolve_of_untranslated {user : Bool} (hardware : core.mmu = .tlb buffer)
    (mapped : route user address = .mapped) (failed : core.translate address intent = none) :
    core.resolve user address intent = .error (core.faultTrap buffer address intent) := by
  have kernel : route false address = .mapped := by
    cases user with
    | false => exact mapped
    | true =>
      cases low : inUserSpace address with
      | true => simp [route, low]
      | false => simp [route, low] at mapped
  simp only [translate, resolve, kernel, hardware, Mmu.translate] at failed
  simp only [resolve, mapped, hardware, Mmu.translate, faultTrap]
  cases answer : buffer.lookup (searchKey address core.system.entryHi) intent with
  | hit frame => simp [answer, Except.toOption] at failed
  | miss | invalid | modified => rfl

/-- The exception tells a write that is kept out from the other failures. -/
theorem exception_faultTrap (core : Core) (buffer : Tlb) (address : Word) (intent : Intent) :
    let exception := (core.faultTrap buffer address intent).exception
    let key := searchKey address core.system.entryHi
    (exception = .tlbModified ↔ buffer.Protects key intent) ∧
      (exception = .tlbStore ↔ intent = .write ∧ ¬ buffer.Protects key intent) ∧
      (exception = .tlbLoad ↔ intent ≠ .write) := by
  intro exception key
  simp only [← Tlb.lookup_eq_modified_iff]
  have kind : exception = Trap.exception
      (.tlbFault address key intent (Mmu.faultKind address (buffer.lookup key intent))) := rfl
  rw [kind]
  cases answer : buffer.lookup key intent with
  | modified =>
    -- Only a write is kept out.
    obtain ⟨rfl, -⟩ := Tlb.lookup_eq_modified_iff.mp answer
    simp [Mmu.faultKind, Trap.exception]
  | miss =>
    cases intent <;> cases low : inUserSpace address <;> simp [Mmu.faultKind, low, Trap.exception]
  | hit frame | invalid => cases intent <;> simp [Mmu.faultKind, Trap.exception]

/-- Only a key that no entry covers is a miss, and only in user space it is a refill. -/
theorem isRefill_faultTrap (complete : buffer.Complete) :
    (core.faultTrap buffer address intent).isRefill = true ↔ inUserSpace address = true ∧
      ∀ slot, (buffer.entry slot).covers (searchKey address core.system.entryHi) = false := by
  have missed : buffer.lookup (searchKey address core.system.entryHi) intent = .miss ↔ _ :=
    Tlb.lookup_eq_miss_iff complete
  rw [← missed]
  simp only [faultTrap, Trap.isRefill, Mmu.faultKind, beq_iff_eq]
  cases buffer.lookup (searchKey address core.system.entryHi) intent with
  | miss => cases inUserSpace address <;> simp
  | hit frame | invalid | modified => simp

theorem faultTold_enter (complete : buffer.Complete) (core : Core) (demand : Demand) :
    let trap := core.faultTrap buffer demand.address demand.intent
    core.FaultTold buffer demand trap.exception (core.enter trap).1 := by
  intro trap
  obtain ⟨modified, store, load⟩ := exception_faultTrap core buffer demand.address demand.intent
  -- The registers that tell of the address are written by the fault only.
  have recorded : ∀ reg ∈ [SystemControl.badAddressReg, SystemControl.entryHiReg,
      SystemControl.contextReg], (core.enter trap).1.system.read reg =
        (core.system.recordTlbFault demand.address
          (searchKey demand.address core.system.entryHi)).read reg := by
    intro reg member
    apply read_enter_record
    revert reg
    decide
  constructor
  case modified => exact modified
  case store => exact store
  case load => exact load
  case codeShown =>
    have code := causeAfter_code core trap.exception
    rw [← cause_enter] at code
    exact code
  case atVector =>
    exact ⟨trap.isRefill, (pc_enter core trap).trans (exceptionVector_eq _ _),
      isRefill_faultTrap complete⟩
  case address =>
    rw [recorded _ (by decide)]
    simp +decide [SystemControl.recordTlbFault, SystemControl.recordAddress,
      SystemControl.read_put]
  case key =>
    rw [SystemControl.entryHi, recorded _ (by decide)]
    simp +decide [SystemControl.recordTlbFault, SystemControl.read_put]
    rfl
  case context =>
    rw [recorded _ (by decide)]
    simp [SystemControl.recordTlbFault, SystemControl.read_put, SystemControl.recordAddress,
      SystemControl.contextBase, SystemControl.contextPage]

/-- Only the system registers and the address of the handler tell of the fault. -/
theorem FaultTold.of_same {before after later : Core} {demand : Demand} {exception : Exception}
    (told : before.FaultTold buffer demand exception after) (system : later.system = after.system)
    (pc : later.pc = after.pc) : before.FaultTold buffer demand exception later := by
  constructor
  case modified => exact told.modified
  case store => exact told.store
  case load => exact told.load
  case codeShown => rw [system, told.codeShown]
  case atVector =>
    rw [pc]
    exact told.atVector
  case address => rw [system, told.address]
  case key => rw [system, told.key]
  case context => rw [system, told.context]

end

end Core

namespace Cpu

/-- A probe that is executed stores what it has found for the key in the upper entry word. -/
theorem Runs.probed {β : Type} [Bus β] {cpu after : Cpu} {bus : β} {word : Word} {buffer : Tlb}
    (runs : cpu.Runs bus word after) (decoded : decode word = .system (.tlb .probe))
    (privileged : cpu.Privileged)
    (hardware : cpu.core.mmu.forgetOrders = (Mmu.tlb buffer).forgetOrders) :
    after.core.system = cpu.core.system.put SystemControl.indexReg
      (SystemControl.indexOf (buffer.probe cpu.core.system.entryHi)) := by
  obtain ⟨core, random, same, completes⟩ := runs.issued
  obtain ⟨allowed, issued⟩ := Core.issue_system random decoded privileged same
  obtain ⟨searched, present, entries⟩ :=
    Mmu.tlb_of_forgetOrders ((Core.mapping_of_forgetOrders same).trans hardware)
  have sameSystem := Core.system_of_forgetOrders same
  have sameProbe : searched.probe = buffer.probe := by
    funext key
    simp only [Tlb.probe, Tlb.entry_of_resetOrders entries]
  have retires : ∃ next notes, core.issue random word = .retire next notes 0 ∧
      next.system = core.system.put SystemControl.indexReg
        (SystemControl.indexOf (searched.probe core.system.entryHi)) := by
    simp only [issued, Core.issueSystem, allowed, present, Mmu.buffer?, Core.issueTlb]
    exact ⟨_, _, rfl, rfl⟩
  obtain ⟨next, notes, retired, stored⟩ := retires
  rw [(completes retired).1, stored, sameProbe, sameSystem]

section

variable {β : Type} [Bus β] {cpu : Cpu} {buffer : Tlb} {bus : β} {operation : Operation}
  {demand : Demand}

/-- The access is made with the orders of the beginning, but for that of the fetch of a step. -/
theorem order?_accessing (cpu : Cpu) {operation : Operation} {demand : Demand} {intent : Intent}
    (other : intent ≠ .fetch ∨ demand.intent = .fetch ∨ operation ≠ .step) :
    (cpu.accessing operation demand).mmu.order? intent = cpu.core.mmu.order? intent := by
  simp only [accessing]
  split
  next fetched =>
    rcases other with apart | own | apart
    · exact cpu.core.order?_touch_of_ne _ apart.symm
    · exact absurd own fetched.2
    · exact absurd fetched.1 apart
  · rfl

/-- Faults of the lookaside buffer are recorded. In any state that can be reached, an access to a
mapped address whose translation fails enters one exception. It is that of a modified page when
the first covering entry is valid and keeps out the write, and otherwise that of a store or of a
load. The handler finds the address, its key and its page number in their registers, and is the
one of refills exactly when no entry covers a key in user space. The fault moves no search order:
a step has at most moved that of its fetch. A probe, which the handler may execute at once, tells
whether an entry covers the key, and the lowest slot whose entry does. -/
theorem faults_recorded (reached : cpu.Reachable) (hardware : cpu.core.mmu = .tlb buffer)
    (attempts : cpu.Attempts bus operation demand) (aligned : demand.misaligned = false)
    (mapped : route cpu.core.userMode demand.address = .mapped)
    (failed : cpu.translate demand.address demand.intent = none) :
    let after := cpu.operate bus operation
    (∃ exception, entered after.notes = [exception] ∧
        cpu.core.FaultTold buffer demand exception after.cpu.core) ∧
      (after.cpu.core.mmu = (cpu.accessing operation demand).mmu ∧
        ∀ intent, intent ≠ .fetch ∨ demand.intent = .fetch ∨ operation ≠ .step →
          after.cpu.core.mmu.order? intent = cpu.core.mmu.order? intent) ∧
      (after.cpu.Privileged ∧ after.cpu.interruptDue = false ∧
        ∀ {γ : Type} [Bus γ] (memory : γ) {word : Word} {probed : Cpu},
          decode word = .system (.tlb .probe) → after.cpu.Runs memory word probed →
            buffer.ProbeTells (searchKey demand.address cpu.core.system.entryHi) demand.intent
              (probed.core.system.read SystemControl.indexReg)) := by
  intro after
  let trap := cpu.core.faultTrap buffer demand.address demand.intent
  have complete : buffer.Complete := reached.complete buffer (by rw [hardware]; rfl)
  have unplaced : cpu.core.place demand = .error trap :=
    Core.place_untranslated aligned (Core.resolve_of_untranslated hardware mapped failed)
  obtain ⟨memory, closes⟩ := operate_of_unplaced attempts unplaced
  -- What the handler finds does not depend on the search orders.
  have same := cpu.forgetOrders_accessing operation demand
  have handled := Core.enter_of_forgetOrders same trap
  have system : after.cpu.core.system = (cpu.core.enter trap).1.system := by
    refine closes.system.trans ?_
    change ((cpu.accessing operation demand).enter trap).1.system = _
    rw [handled]
  have vector : after.cpu.core.pc = (cpu.core.enter trap).1.pc := by
    refine closes.pc_trap.trans ?_
    rw [handled]
  have mmu : after.cpu.core.mmu = (cpu.accessing operation demand).mmu := closes.mmu
  have told := Core.faultTold_enter complete cpu.core demand
  have status : after.cpu.core.system.status = Status.push cpu.core.system.status := by
    rw [system, Core.status_enter]
  have privileged : after.cpu.Privileged := by
    left
    rw [Core.userMode, status]
    exact Status.userMode_push _
  refine ⟨⟨trap.exception, ?_, ?_⟩, ⟨mmu, ?_⟩, privileged, ?_, ?_⟩
  · rw [closes.notes]
    exact entered_trap _ _ _
  · exact told.of_same system vector
  · intro intent other
    rw [mmu]
    exact cpu.order?_accessing other
  · have masked := Status.masked_of_present (Status.push_present cpu.core.system.status)
    rw [interruptDue, status, masked.2]
    rfl
  · intro γ _ memory word probed decoded runs
    have entries : after.cpu.core.mmu.forgetOrders = (Mmu.tlb buffer).forgetOrders := by
      rw [mmu, ← hardware]
      exact Core.mapping_of_forgetOrders same
    have key : after.cpu.core.system.entryHi =
        searchKey demand.address cpu.core.system.entryHi := by
      rw [system]
      exact told.key
    rw [runs.probed decoded privileged entries, SystemControl.read_put, if_pos rfl, key]
    exact buffer.probeTells_indexOf _ _

end

/-- The requests by which a host stores an entry for the second page of user space in slot 5, valid
but not to be written, and clears the index. -/
def protectPage : List HostRequest :=
  [.operate (.setSystemReg 10 0x1000), .operate (.setSystemReg 2 0x2200),
    .operate (.setSystemReg 0 0x500), .operate (.execute 0x42000002),
    .operate (.setSystemReg 0 0)]

def withProtected : Cpu :=
  protectPage.foldl (Cpu.serve · thirdFrame ·) (Cpu.build (.ofModel .r3000A)).1

/-- What a store to that page comes to. -/
def keptOut : Outcome Ram := withProtected.operate thirdFrame (.execute 0xac011004)

/-- The store enters the exception of a modified page, and a probe finds slot 5. -/
theorem faults_recorded_protected :
    withProtected.translate 0x1004 .write = none ∧ entered keptOut.notes = [.tlbModified] ∧
      keptOut.cpu.core.pc = 0xbfc00180 ∧
      keptOut.cpu.core.system.read SystemControl.badAddressReg = 0x1004 ∧
      (keptOut.cpu.execute thirdFrame 0x42000008).cpu.core.system.read SystemControl.indexReg =
        0x500 := by
  have reached : withProtected.Reachable :=
    ((Cpu.Used.built _).serve_all thirdFrame protectPage).reachable
  let buffer := Tlb.initial.setEntry 5 ⟨0x1000, 0x2200⟩
  have hardware : withProtected.core.mmu = .tlb buffer := by decide +kernel
  have issued : withProtected.core.issue withProtected.random 0xac011004 =
      .store ⟨.word, 0x1004, true, 0, fullMask .word⟩ := by rfl
  have attempts : withProtected.Attempts thirdFrame (.execute 0xac011004)
      ⟨.word, 0x1004, true, .write⟩ := .direct (.store issued)
  have failed : withProtected.translate 0x1004 .write = none := by decide +kernel
  obtain ⟨⟨exception, reported, told⟩, -, -, -, probing⟩ :=
    faults_recorded reached hardware attempts (by decide) (by decide +kernel) failed
  have key : searchKey 0x1004 withProtected.core.system.entryHi = 0x1000 := by decide +kernel
  have first : buffer.FirstAt 0x1000 .write 5 5 :=
    ⟨by decide +kernel, by decide +kernel, by decide +kernel⟩
  have modified : exception = .tlbModified := by
    refine told.modified.mpr ⟨rfl, 5, 5, ?_, by decide +kernel, by decide +kernel⟩
    rw [key]
    exact first
  obtain ⟨refill, vector, refills⟩ := told.atVector
  have general : refill = false := by
    cases refill with
    | false => rfl
    | true => exact absurd ((refills.mp rfl).2 5) (by decide +kernel)
  have single : ∀ slot other, (buffer.entry slot).covers 0x1000 = true →
      (buffer.entry other).covers 0x1000 = true → slot = other := by
    have only : ∀ slot, (buffer.entry slot).covers 0x1000 = true → slot = 5 := by decide +kernel
    intro slot other covers covers'
    rw [only slot covers, only other covers']
  have probed : keptOut.cpu.Runs thirdFrame 0x42000008
      (keptOut.cpu.execute thirdFrame 0x42000008).cpu := .given
  have tells := probing thirdFrame (by decide) probed
  rw [key] at tells
  rw [modified] at reported
  rw [general] at vector
  exact ⟨failed, reported, vector.trans (by decide +kernel), told.address,
    tells.answering single 5 5 first⟩

end Cpu

end R3000

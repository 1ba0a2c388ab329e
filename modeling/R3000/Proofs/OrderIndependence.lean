import R3000.BusTrace
import R3000.Clock
import R3000.Proofs.Disguises
import R3000.Proofs.Entering
import R3000.Proofs.RunInvariants
import R3000.Ram

/-!
# Independence of the search orders

A buffer is coherent when entries that cover one key agree in what they say about it. The
search orders of such a buffer are only a matter of speed: two processors that differ in them
alone do the same.

Instructions are issued from the core without a search, so to forget the orders is to disguise
the core. The searches of a step are those that place its accesses, and there the entries
that may answer all answer alike.
-/
namespace R3000

/-! ### Coherent buffers -/

namespace Tlb

/-- Entries that cover one key agree in their frame and in what may be done with it. -/
def Coherent (tlb : Tlb) : Prop :=
  ∀ key slot other, (tlb.entry slot).covers key = true → (tlb.entry other).covers key = true →
    (tlb.entry slot).valid = (tlb.entry other).valid ∧
      (tlb.entry slot).dirty = (tlb.entry other).dirty ∧
        (tlb.entry slot).frame = (tlb.entry other).frame

/-- Entries of different pages never cover one key, so only those of one page have to agree. -/
theorem coherent_of_pages {tlb : Tlb}
    (agree : ∀ slot other, (tlb.entry slot).hi &&& pageMask = (tlb.entry other).hi &&& pageMask →
      (tlb.entry slot).lo = (tlb.entry other).lo) : tlb.Coherent := by
  have page {entry : TlbEntry} {key : Word} (covers : entry.covers key = true) :
      entry.hi &&& pageMask = key &&& pageMask := by
    have within : entry.keyMask &&& pageMask = pageMask := by
      simp only [TlbEntry.keyMask]
      split <;> decide
    exact and_of_subset (eq_of_beq covers) within
  intro key slot other covers covers'
  have lower := agree slot other ((page covers).trans (page covers').symm)
  simp only [TlbEntry.valid, TlbEntry.dirty, TlbEntry.frame, lower, and_self]

theorem Coherent.of_resetOrders {tlb other : Tlb} (coherent : tlb.Coherent)
    (same : tlb.resetOrders = other.resetOrders) : other.Coherent := by
  intro key slot later
  simp only [← entry_of_resetOrders same]
  exact coherent key slot later

/-- Two buffers with the same entries answer alike when the entries are coherent, in whatever
orders they search. -/
theorem lookup_of_resetOrders {tlb other : Tlb} (coherent : tlb.Coherent)
    (complete : tlb.Complete) (complete' : other.Complete)
    (same : tlb.resetOrders = other.resetOrders) (key : Word) (intent : Intent) :
    tlb.lookup key intent = other.lookup key intent := by
  -- Whether a key is covered, and by what, is a matter of the entries, which both share.
  have entries := entry_of_resetOrders same
  by_cases covered : ∃ slot, (tlb.entry slot).covers key = true
  · obtain ⟨slot, covers⟩ := covered
    have alike : ∀ later, (tlb.entry later).covers key = true →
        (tlb.entry later).answer intent = (tlb.entry slot).answer intent := by
      intro later covering
      obtain ⟨valid, dirty, frame⟩ := coherent key later slot covering covers
      simp only [TlbEntry.answer, valid, dirty, frame]
    calc
      tlb.lookup key intent = (tlb.entry slot).answer intent :=
        lookup_of_alike complete covers alike
      _ = (other.entry slot).answer intent := by rw [entries]
      _ = other.lookup key intent := by
        simp only [entries] at covers alike
        exact (lookup_of_alike complete' covers alike).symm
  · have uncovered : ∀ slot, (tlb.entry slot).covers key = false := by
      intro slot
      cases covers : (tlb.entry slot).covers key with
      | false => rfl
      | true => exact absurd ⟨slot, covers⟩ covered
    have uncovered' := uncovered
    simp only [entries] at uncovered'
    rw [lookup_of_uncovered uncovered, lookup_of_uncovered uncovered']

end Tlb

namespace Mmu

/-- The entries that are searched are coherent. -/
def Coherent (mmu : Mmu) : Prop := ∀ buffer, mmu = .tlb buffer → buffer.Coherent

theorem Coherent.of_forgetOrders {mmu other : Mmu} (coherent : mmu.Coherent)
    (same : mmu.forgetOrders = other.forgetOrders) : other.Coherent := by
  rintro buffer rfl
  obtain ⟨searched, hardware, entries⟩ := tlb_of_forgetOrders same
  exact (coherent searched hardware).of_resetOrders entries

theorem translate_of_forgetOrders {mmu other : Mmu} (coherent : mmu.Coherent)
    (complete : mmu.Complete) (complete' : other.Complete)
    (same : mmu.forgetOrders = other.forgetOrders) (entryHi address : Word) (intent : Intent) :
    mmu.translate entryHi address intent = other.translate entryHi address intent := by
  cases other with
  | tlb buffer =>
    obtain ⟨searched, rfl, entries⟩ := tlb_of_forgetOrders same
    have answer := Tlb.lookup_of_resetOrders (coherent searched rfl) (complete searched rfl)
      (complete' buffer rfl) entries (searchKey address entryHi) intent
    simp only [translate, answer]
  -- Without a search there is nothing to compare.
  | fixed =>
    cases mmu with
    | fixed => rfl
    | tlb searched | bypass unused => cases same
  | bypass buffer =>
    cases mmu with
    | bypass unused => rfl
    | tlb searched => cases same
    | fixed => cases same

end Mmu

/-! ### Placing accesses -/

namespace Core

/-- Two cores that differ in their search orders only, which are complete, and whose entries
are coherent. -/
structure Alike (core other : Core) : Prop where
  same : core.forgetOrders = other.forgetOrders
  complete : core.mmu.Complete
  complete' : other.mmu.Complete
  coherent : core.mmu.Coherent

section

variable {core other : Core}

theorem Alike.touch (alike : core.Alike other) (address : Word) (intent : Intent) :
    (core.touch address intent).Alike (other.touch address intent) where
  same := by
    rw [forgetOrders_touch, forgetOrders_touch]
    exact alike.same
  complete := touch_complete alike.complete address intent
  complete' := touch_complete alike.complete' address intent
  coherent := by
    apply alike.coherent.of_forgetOrders
    exact (mapping_of_forgetOrders (forgetOrders_touch core address intent)).symm

theorem Alike.resolve (alike : core.Alike other) (user : Bool) (address : Word)
    (intent : Intent) : core.resolve user address intent = other.resolve user address intent := by
  have system := system_of_forgetOrders alike.same
  have answer := Mmu.translate_of_forgetOrders alike.coherent alike.complete alike.complete'
    (mapping_of_forgetOrders alike.same) other.system.entryHi address intent
  simp only [Core.resolve, answer, system]

theorem Alike.place (alike : core.Alike other) (demand : Demand) :
    core.place demand = other.place demand := by
  have mode : core.userMode = other.userMode := by
    simp only [userMode, system_of_forgetOrders alike.same]
  simp only [Core.place, alike.resolve, mode]

end

end Core

/-! ### Steps -/

namespace Cpu

/-- The processor with the search orders as after a reset. -/
def forgetOrders (cpu : Cpu) : Cpu := { cpu with core := cpu.core.forgetOrders }

end Cpu

def Outcome.forgetOrders {β : Type} (outcome : Outcome β) : Outcome β :=
  { outcome with cpu := outcome.cpu.forgetOrders }

namespace Cpu

/-- Two processors that differ in their search orders only, which are complete, and whose
entries are coherent. -/
structure Alike (first second : Cpu) : Prop where
  same : first.forgetOrders = second.forgetOrders
  complete : first.core.mmu.Complete
  complete' : second.core.mmu.Complete
  coherent : first.core.mmu.Coherent

/-- The outcome of a number of steps, with the notes of all of them. -/
def steps {β : Type} [Bus β] (cpu : Cpu) (bus : β) : Nat → Outcome β
  | 0 => ⟨cpu, bus, []⟩
  | count + 1 =>
    let before := steps cpu bus count
    let after := before.cpu.step before.bus
    { after with notes := before.notes ++ after.notes }

section

variable {β : Type} {first second : Cpu}

theorem Alike.core (alike : first.Alike second) : first.core.Alike second.core :=
  ⟨congrArg Cpu.core alike.same, alike.complete, alike.complete', alike.coherent⟩

theorem Alike.tick (alike : first.Alike second) (cycles : Nat) :
    (first.tick cycles).Alike (second.tick cycles) :=
  ⟨congrArg (·.tick cycles) alike.same, alike.complete, alike.complete', alike.coherent⟩

/-- Cores that are equal up to the orders may take each other's place. -/
theorem withCore_of_forgetOrders (same : first.forgetOrders = second.forgetOrders)
    {core core' : Core} (cores : core.forgetOrders = core'.forgetOrders) :
    { first with core }.forgetOrders = { second with core := core' }.forgetOrders := by
  calc
    { first with core }.forgetOrders = { first.forgetOrders with core := core.forgetOrders } := rfl
    _ = { second.forgetOrders with core := core'.forgetOrders } := by rw [same, cores]
    _ = { second with core := core' }.forgetOrders := rfl

theorem Alike.mark (alike : first.Alike second) (demand : Demand) :
    (first.mark demand).Alike (second.mark demand) := by
  obtain ⟨cores, complete, complete', coherent⟩ := alike.core.touch demand.address demand.intent
  exact ⟨withCore_of_forgetOrders alike.same cores, complete, complete', coherent⟩

theorem outcome_of_forgetOrders (same : first.forgetOrders = second.forgetOrders) (bus : β)
    (notes : List Note) :
    Outcome.forgetOrders ⟨first, bus, notes⟩ = Outcome.forgetOrders ⟨second, bus, notes⟩ :=
  congrArg (fun cpu => (⟨cpu, bus, notes⟩ : Outcome β)) same

theorem trap_of_forgetOrders (same : first.forgetOrders = second.forgetOrders) (bus : β)
    (trap : Trap) :
    (first.trap bus trap).forgetOrders = (second.trap bus trap).forgetOrders := by
  calc
    (first.trap bus trap).forgetOrders = first.forgetOrders.trap bus trap := rfl
    _ = second.forgetOrders.trap bus trap := by rw [same]
    _ = (second.trap bus trap).forgetOrders := rfl

variable [Bus β]

theorem readData_of_forgetOrders (same : first.forgetOrders = second.forgetOrders) (bus : β)
    (width : Width) (place : Word) :
    first.readData bus width place = second.readData bus width place := by
  calc
    first.readData bus width place = first.forgetOrders.readData bus width place := rfl
    _ = second.forgetOrders.readData bus width place := by rw [same]
    _ = second.readData bus width place := rfl

theorem Alike.load (alike : first.Alike second) (bus : β) (load : Load) :
    (first.load bus load).forgetOrders = (second.load bus load).forgetOrders := by
  have marked := alike.mark load.demand
  rw [load_eq, load_eq, alike.core.place]
  cases second.core.place load.demand with
  | error trap => exact trap_of_forgetOrders alike.same bus trap
  | ok place =>
    simp only [readData_of_forgetOrders alike.same bus load.width place]
    split
    · exact trap_of_forgetOrders marked.same _ _
    next value _ =>
      have received := congrArg (·.receive load.destination value) marked.core.same
      simp only [← Core.disguised_orders, Core.receive_disguised] at received
      exact outcome_of_forgetOrders (withCore_of_forgetOrders alike.same received) _ _

theorem writeData_of_forgetOrders (same : first.forgetOrders = second.forgetOrders) (bus : β)
    (width : Width) (place : Word) (value mask : BitVec width.bits) :
    (first.writeData bus width place value mask).1 =
        (second.writeData bus width place value mask).1 ∧
      (first.writeData bus width place value mask).2.1.forgetOrders =
        (second.writeData bus width place value mask).2.1.forgetOrders ∧
      (first.writeData bus width place value mask).2.2 =
        (second.writeData bus width place value mask).2.2 := by
  have commutes (cpu : Cpu) : cpu.forgetOrders.writeData bus width place value mask =
      ((cpu.writeData bus width place value mask).1,
        (cpu.writeData bus width place value mask).2.1.forgetOrders,
        (cpu.writeData bus width place value mask).2.2) := by
    have sameSpace : cpu.forgetOrders.core.space = cpu.core.space := rfl
    simp only [writeData, sameSpace]
    split <;> rfl
  have equal := commutes first
  rw [same, commutes second] at equal
  obtain ⟨answers, rest⟩ := Prod.mk.inj equal
  obtain ⟨written, memories⟩ := Prod.mk.inj rest
  exact ⟨answers.symm, written.symm, memories.symm⟩

theorem Alike.store (alike : first.Alike second) (bus : β) (store : Store) :
    (first.store bus store).forgetOrders = (second.store bus store).forgetOrders := by
  have marked := alike.mark store.demand
  rw [store_eq, store_eq, alike.core.place]
  cases second.core.place store.demand with
  | error trap => exact trap_of_forgetOrders alike.same bus trap
  | ok place =>
    obtain ⟨answers, written, memories⟩ :=
      writeData_of_forgetOrders alike.same bus store.width place store.value store.mask
    simp only [answers, memories]
    split
    · exact trap_of_forgetOrders marked.same _ _
    · exact outcome_of_forgetOrders (withCore_of_forgetOrders written marked.core.same) _ _

theorem Alike.execute (alike : first.Alike second) (bus : β) (word : Word) :
    (first.execute bus word).forgetOrders = (second.execute bus word).forgetOrders := by
  -- The random slot is a matter of the time that has passed.
  have random : first.random = second.random := (congrArg Cpu.random alike.same :)
  have issues : (first.core.issue first.random word).disguised .orders =
      (second.core.issue second.random word).disguised .orders := by
    rw [random]
    calc
      (first.core.issue second.random word).disguised .orders =
          first.core.forgetOrders.issue second.random word :=
        (Core.issueInstr_disguised first.core .orders second.random word (.inl rfl)).symm
      _ = second.core.forgetOrders.issue second.random word := by rw [alike.core.same]
      _ = (second.core.issue second.random word).disguised .orders :=
        Core.issueInstr_disguised second.core .orders second.random word (.inl rfl)
  simp only [Cpu.execute]
  rcases Issue.cases_of_disguised issues with equal |
    ⟨core, core', notes, extra, one, two, cores⟩
  · rw [equal]
    cases second.core.issue second.random word with
    | retire core notes extra =>
      have retired := withCore_of_forgetOrders alike.same (Eq.refl core.forgetOrders)
      exact outcome_of_forgetOrders (congrArg (·.tick extra) retired) _ _
    | raise trap => exact trap_of_forgetOrders alike.same bus trap
    | load load => exact alike.load bus load
    | store store => exact alike.store bus store
  · rw [one, two]
    have retired := withCore_of_forgetOrders alike.same cores
    exact outcome_of_forgetOrders (congrArg (·.tick extra) retired) _ _

/-- A fetch finds the same, and the two have moved the same search order at most. -/
theorem Alike.fetch (alike : first.Alike second) (bus : β) :
    (first.fetch bus).1 = (second.fetch bus).1 ∧
      (first.fetch bus).2.1.Alike (second.fetch bus).2.1 ∧
        (first.fetch bus).2.2 = (second.fetch bus).2.2 := by
  have samePc : first.core.pc = second.core.pc := (congrArg Core.pc alike.core.same :)
  have demand : first.core.fetchDemand = second.core.fetchDemand := by
    simp only [Core.fetchDemand, samePc]
  have marked := alike.mark second.core.fetchDemand
  rw [fetch_eq, fetch_eq, demand, alike.core.place, samePc]
  cases second.core.place second.core.fetchDemand with
  | error trap => exact ⟨rfl, alike, rfl⟩
  | ok place =>
    simp only
    split <;> exact ⟨rfl, marked, rfl⟩

theorem Alike.perform (alike : first.Alike second) (bus : β) :
    (first.perform bus).forgetOrders = (second.perform bus).forgetOrders := by
  have fetches := alike.fetch bus
  simp only [Cpu.perform]
  generalize first.fetch bus = one at fetches ⊢
  generalize second.fetch bus = two at fetches ⊢
  obtain ⟨answer, fetched, memory⟩ := one
  obtain ⟨answer', fetched', memory'⟩ := two
  obtain ⟨answers, found, memories⟩ := fetches
  simp only at answers found memories
  subst answers memories
  -- Both have fetched the same answer, so both take the same course.
  cases answer with
  | error trap => exact trap_of_forgetOrders found.same memory trap
  | ok word =>
    have system := Core.system_of_forgetOrders found.core.same
    simp only [system]
    split
    · exact trap_of_forgetOrders found.same memory .interrupt
    · exact found.execute memory word

/-- The outcome of a step is the same up to the orders. -/
theorem Alike.step (alike : first.Alike second) (bus : β) :
    (first.step bus).forgetOrders = (second.step bus).forgetOrders :=
  -- Going on to the next instruction does not concern the orders.
  (congrArg advance ((alike.tick 1).perform bus) :)

/-- The steps of two processors stay the same, up to the orders, for as long as the entries are
coherent. -/
theorem Alike.steps {bus : β} (alike : first.Alike second) {count : Nat}
    (coherent : ∀ earlier < count, (first.steps bus earlier).cpu.core.mmu.Coherent) :
    (first.steps bus count).forgetOrders = (second.steps bus count).forgetOrders ∧
      (first.steps bus count).cpu.core.mmu.Complete ∧
        (second.steps bus count).cpu.core.mmu.Complete := by
  -- Complete orders are kept by every step. Coherent entries are not, since a program may store
  -- what it likes, so they are asked for in each state from which a step is made.
  induction count with
  | zero => exact ⟨outcome_of_forgetOrders alike.same _ _, alike.complete, alike.complete'⟩
  | succ count ih =>
    obtain ⟨same, complete, complete'⟩ :=
      ih fun earlier before => coherent earlier (Nat.lt_succ_of_lt before)
    have still : (first.steps bus count).cpu.Alike (second.steps bus count).cpu :=
      ⟨(congrArg Outcome.cpu same :), complete, complete', coherent count (Nat.lt_succ_self count)⟩
    have memories : (first.steps bus count).bus = (second.steps bus count).bus :=
      (congrArg Outcome.bus same :)
    have noted : (first.steps bus count).notes = (second.steps bus count).notes :=
      (congrArg Outcome.notes same :)
    have stepped := still.step (second.steps bus count).bus
    refine ⟨?_, step_complete complete _, step_complete complete' _⟩
    simp only [Cpu.steps, memories, noted]
    exact (congrArg (fun outcome : Outcome β =>
      { outcome with notes := (second.steps bus count).notes ++ outcome.notes }) stepped :)

end

/-- The search orders are only a hint. A step of two processors that differ in complete search
orders alone, with coherent entries, costs the same, takes the same notes, makes the same calls
on the memory, leaves it the same, and leaves two processors that again differ in complete
search orders alone. So does any number of steps through states with coherent entries. -/
theorem step_ignores_orders {β : Type} [Bus β] {first second : Cpu} (bus : β)
    (same : first.forgetOrders = second.forgetOrders) (complete : first.core.mmu.Complete)
    (complete' : second.core.mmu.Complete) (coherent : first.core.mmu.Coherent) :
    first.cost bus = second.cost bus ∧
      (first.step bus).notes = (second.step bus).notes ∧
      (first.step (Watched.start bus)).bus.history =
        (second.step (Watched.start bus)).bus.history ∧
      (first.step bus).bus = (second.step bus).bus ∧
      (first.step bus).cpu.forgetOrders = (second.step bus).cpu.forgetOrders ∧
      (first.step bus).cpu.core.mmu.Complete ∧ (second.step bus).cpu.core.mmu.Complete ∧
      ∀ count, (∀ earlier < count, (first.steps bus earlier).cpu.core.mmu.Coherent) →
        (first.steps bus count).forgetOrders = (second.steps bus count).forgetOrders := by
  have alike : first.Alike second := ⟨same, complete, complete', coherent⟩
  have stepped := alike.step bus
  have watched := alike.step (Watched.start bus)
  have started : first.cycles = second.cycles := (congrArg Cpu.cycles same :)
  have ended : (first.step bus).cpu.cycles = (second.step bus).cpu.cycles :=
    (congrArg (·.cpu.cycles) stepped :)
  refine ⟨?_, (congrArg Outcome.notes stepped :), ?_, (congrArg Outcome.bus stepped :),
    (congrArg Outcome.cpu stepped :), step_complete complete bus, step_complete complete' bus, ?_⟩
  · simp only [cost, started, ended]
  · exact (congrArg (·.bus.history) watched :)
  · intro count kept
    exact (alike.steps kept).1

/-- A load from the second page of user space, at the boot vector. -/
def loadFromPage : Ram where
  base := 0x1fc00000
  order := .big
  faults := []
  data := #[0x8c, 0x01, 0x10, 0x00]

/-- Slot 5 and then slot 4 map the page to the frame of the boot vector. -/
def slotWrites (between : List Operation) : List Operation :=
  [.setSystemReg 10 0x1000, .setSystemReg 2 0x1fc00600, .setSystemReg 0 0x500,
    .execute 0x42000002] ++ between ++ [.setSystemReg 0 0x400, .execute 0x42000002]

def mapTwice (between : List Operation) : Cpu :=
  (Cpu.build (.ofModel .r3000A)).1.operateAll loadFromPage (slotWrites between)

theorem mapTwice_reachable (between : List Operation) : (mapTwice between).Reachable :=
  ⟨.ofModel .r3000A, Leads.refl.operateAll loadFromPage fun _ _ => trivial⟩

/-- A load to register zero leaves its trace in the order of reads only, which makes another
slot answer later. The later load does the same all the same. -/
theorem step_ignores_orders_load :
    (mapTwice []).core.mmu ≠ (mapTwice [.execute 0x8c001000]).core.mmu ∧
      ((mapTwice []).step loadFromPage).cpu.gpr 1 = 0x8c011000 ∧
      ((mapTwice []).step loadFromPage).cpu.forgetOrders =
        ((mapTwice [.execute 0x8c001000]).step loadFromPage).cpu.forgetOrders := by
  have same : (mapTwice []).forgetOrders = (mapTwice [.execute 0x8c001000]).forgetOrders := by
    rfl
  have filled : ∀ buffer ∈ (mapTwice []).core.mmu.buffer?, ∀ slot, buffer.entry slot =
      if slot = 4 ∨ slot = 5 then ⟨0x1000, 0x1fc00600⟩ else .empty := by
    decide +kernel
  have coherent : (mapTwice []).core.mmu.Coherent := by
    intro buffer hardware
    have entries := filled buffer (by rw [hardware]; rfl)
    apply Tlb.coherent_of_pages
    intro slot other page
    rw [entries, entries] at page ⊢
    -- The two entries of the page are the same, and so are the empty ones.
    by_cases one : slot = 4 ∨ slot = 5 <;> by_cases two : other = 4 ∨ other = 5
    · simp only [one, two]
    · simp only [one, two, if_true, if_false] at page
      exact absurd page (by decide)
    · simp only [one, two, if_true, if_false] at page
      exact absurd page (by decide)
    · simp only [one, two]
  obtain ⟨-, -, -, -, after, -⟩ := step_ignores_orders loadFromPage same
    (mapTwice_reachable []).complete (mapTwice_reachable _).complete coherent
  exact ⟨by decide +kernel, by decide +kernel, after⟩

end Cpu

end R3000

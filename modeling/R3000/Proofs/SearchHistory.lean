import R3000.Proofs.Accesses
import R3000.Proofs.RunInvariants
import R3000.Ram

/-!
# The history of the search orders

A host uses a lookaside buffer by itself or inside a processor. In both cases each of the three
search orders lists every slot once, whatever was done and however often. An order is rearranged
by the accesses of its own kind; only a reset touches all three.

Which kinds of access an operation makes is known from its accesses, so what is said here of
orders holds of every instruction without looking at it again.
-/
namespace R3000

/-! ### A buffer by itself -/

inductive TlbRequest where
  | write (index : Nat) (entry : TlbEntry)
  /-- Search for a key; the entry that answers is promoted only if that is asked for. -/
  | lookup (key : Word) (intent : Intent) (promoting : Bool)
  | probe (key : Word)
  | resetOrders
  deriving DecidableEq, Repr

/-- The kinds of access whose search order a request may rearrange. -/
def TlbRequest.intents : TlbRequest → List Intent
  | write _ _ | probe _ => []
  | lookup _ intent _ => [intent]
  | resetOrders => Intent.all

theorem Intent.mem_all (intent : Intent) : intent ∈ Intent.all := by
  cases intent <;> decide

namespace Tlb

/-- The buffer after a request. -/
def serve (tlb : Tlb) : TlbRequest → Tlb
  | .write index entry => tlb.setEntry (Fin.ofNat 64 index) entry
  | .lookup key intent promoting => if promoting then tlb.promote key intent else tlb
  | .probe _ => tlb
  | .resetOrders => tlb.resetOrders

theorem Complete.serve {tlb : Tlb} (complete : tlb.Complete) (request : TlbRequest) :
    (tlb.serve request).Complete := by
  cases request with
  | write index entry => exact complete.setEntry _ _
  | lookup key intent promoting =>
    cases promoting with
    | true => exact complete.promote key intent
    | false => exact complete
  | probe key => exact complete
  | resetOrders => exact tlb.complete_resetOrders

theorem Complete.serve_all {tlb : Tlb} (complete : tlb.Complete) (requests : List TlbRequest) :
    (requests.foldl Tlb.serve tlb).Complete := by
  -- The buffer changes with every request, so the induction is over all complete buffers.
  induction requests generalizing tlb with
  | nil => exact complete
  | cons request rest ih => exact ih (complete.serve request)

theorem order_serve {tlb : Tlb} {request : TlbRequest} {intent : Intent}
    (unused : intent ∉ request.intents) : (tlb.serve request).order intent = tlb.order intent := by
  cases request with
  | write index entry => exact congrFun (order_setEntry tlb _ entry) intent
  | lookup key used promoting =>
    have apart : used ≠ intent := fun same => unused (List.mem_singleton.mpr same.symm)
    cases promoting with
    | true => exact tlb.order_promote_of_ne key apart
    | false => rfl
  | probe key => rfl
  | resetOrders => exact absurd intent.mem_all unused

end Tlb

/-! ### The orders inside a processor -/

namespace Mmu

/-- The search order of one kind of access, if there is a buffer. -/
def order? (mmu : Mmu) (intent : Intent) : Option SearchOrder :=
  mmu.buffer?.map (·.order intent)

theorem order?_mapBuffer {change : Tlb → Tlb} (mmu : Mmu) (intent : Intent)
    (kept : ∀ buffer, (change buffer).order = buffer.order) :
    (mmu.mapBuffer change).order? intent = mmu.order? intent := by
  cases mmu with
  | fixed => rfl
  | tlb buffer | bypass buffer => exact congrArg (fun order => some (order intent)) (kept buffer)

theorem order?_promote_of_ne (mmu : Mmu) (entryHi address : Word) {intent later : Intent}
    (apart : intent ≠ later) :
    (mmu.promote entryHi address intent).order? later = mmu.order? later := by
  cases mmu with
  | tlb buffer => exact congrArg some (buffer.order_promote_of_ne _ apart)
  | fixed | bypass buffer => rfl

end Mmu

namespace Core

/-- An access rearranges the order of its own kind at most. -/
theorem order?_touch_of_ne (core : Core) (address : Word) {intent later : Intent}
    (apart : intent ≠ later) :
    (core.touch address intent).mmu.order? later = core.mmu.order? later := by
  rcases core.touch_cases address intent with same | ⟨-, moved⟩
  · rw [same]
  · rw [moved]
    exact core.mmu.order?_promote_of_ne _ _ apart

/-- A demand that finds its place is an access, so it uses the order of its intent. -/
theorem order?_mark_of_unused {core : Core} {space : DataSpace} {demand : Demand} {place : Word}
    {intent : Intent} (placed : core.place demand = .ok place)
    (unused : intent ∉ (core.reach space demand).map Access.intent) :
    (core.mark demand).mmu.order? intent = core.mmu.order? intent := by
  have apart : demand.intent ≠ intent := by
    intro same
    apply unused
    simp [reach, placed, same]
  exact core.order?_touch_of_ne demand.address apart

theorem Completes.order? {core next : Core} {random : Fin 64} {word : Word} {instr : Instr}
    {notes : List Note} (completes : core.Completes random word instr next notes)
    (intent : Intent) : next.mmu.order? intent = core.mmu.order? intent := by
  rcases completes.mmu with unchanged | ⟨slot, written⟩
  · rw [unchanged]
  · rw [written]
    exact core.mmu.order?_mapBuffer intent fun buffer => Tlb.order_setEntry buffer _ _

end Core

namespace Cpu

variable {β : Type} [Bus β]

theorem order?_fetch {cpu : Cpu} {intent : Intent}
    (unused : intent ∉ (cpu.core.reach .program cpu.core.fetchDemand).map Access.intent) (bus : β) :
    (cpu.fetch bus).2.1.core.mmu.order? intent = cpu.core.mmu.order? intent := by
  rw [fetch_eq]
  cases placed : cpu.core.place cpu.core.fetchDemand with
  | error trap => rfl
  | ok place =>
    -- The order moves before the memory answers, so a refused fetch uses it too.
    have marked := Core.order?_mark_of_unused placed unused
    simp only
    split <;> exact marked

theorem order?_load {cpu : Cpu} {load : Load} {intent : Intent}
    (unused : intent ∉ (cpu.core.reach cpu.core.space load.demand).map Access.intent) (bus : β) :
    (cpu.load bus load).cpu.core.mmu.order? intent = cpu.core.mmu.order? intent := by
  rw [load_eq]
  cases placed : cpu.core.place load.demand with
  | error trap => rfl
  | ok place =>
    have marked := Core.order?_mark_of_unused placed unused
    simp only
    split
    · exact marked
    · rw [Core.mmu_receive]
      exact marked

theorem order?_store {cpu : Cpu} {store : Store} {intent : Intent}
    (unused : intent ∉ (cpu.core.reach cpu.core.space store.demand).map Access.intent) (bus : β) :
    (cpu.store bus store).cpu.core.mmu.order? intent = cpu.core.mmu.order? intent := by
  rw [store_eq]
  cases placed : cpu.core.place store.demand with
  | error trap => rfl
  | ok place =>
    have marked := Core.order?_mark_of_unused placed unused
    simp only
    split <;> exact marked

theorem order?_execute {cpu : Cpu} {word : Word} {intent : Intent}
    (unused : intent ∉ (cpu.dataAccesses word).map Access.intent) (bus : β) :
    (cpu.execute bus word).cpu.core.mmu.order? intent = cpu.core.mmu.order? intent := by
  simp only [dataAccesses] at unused
  simp only [execute]
  cases issued : cpu.core.issue cpu.random word with
  | retire core notes extra => exact (Core.issueInstr_completes issued).order? intent
  | raise trap => rfl
  | load load =>
    simp only [issued] at unused
    exact order?_load unused bus
  | store store =>
    simp only [issued] at unused
    exact order?_store unused bus

theorem order?_step {cpu : Cpu} {bus : β} {intent : Intent}
    (unused : intent ∉ (cpu.accesses bus).map Access.intent) :
    (cpu.step bus).cpu.core.mmu.order? intent = cpu.core.mmu.order? intent := by
  simp only [accesses, List.map_append, List.mem_append, not_or] at unused
  obtain ⟨notFetched, notAsked⟩ := unused
  -- The fetch keeps the order, and so does what comes after it: a trap, which makes no access,
  -- or the instruction.
  have fetching := @order?_fetch β _ (cpu.tick 1) intent notFetched bus
  rcases cpu.step_cases bus with ⟨trap, fetched, memory, fetch, -, stepped⟩ |
    ⟨word, fetched, memory, fetch, due, -, stepped⟩ |
    ⟨word, fetched, memory, fetch, calm, -, stepped⟩
  · rw [fetch] at fetching
    rw [stepped]
    exact fetching
  · rw [fetch] at fetching
    rw [stepped]
    exact fetching
  · rw [fetch] at fetching
    simp only [fetch, calm] at notAsked
    rw [stepped]
    exact (order?_execute notAsked memory).trans fetching

end Cpu

/-! ### A processor and its host -/

/-- What a host does with a processor: it operates it, or asks where an access would go. -/
inductive HostRequest where
  | operate (operation : Operation)
  | translate (address : Word) (intent : Intent)
  deriving DecidableEq, Repr

namespace Cpu

/-- The processor after a request. Asking for a translation only gives an answer. -/
def serve {β : Type} [Bus β] (cpu : Cpu) (bus : β) : HostRequest → Cpu
  | .operate operation => (cpu.operate bus operation).cpu
  | .translate _ _ => cpu

/-- The kinds of access whose search order a request may rearrange. -/
def intents {β : Type} [Bus β] (cpu : Cpu) (bus : β) : HostRequest → List Intent
  | .operate .step => (cpu.accesses bus).map Access.intent
  | .operate (.execute word) => (cpu.dataAccesses word).map Access.intent
  | .operate .reset => Intent.all
  | .operate _ | .translate _ _ => []

/-- A processor that was built from some description and has served any requests since, each
with the memory that the host provided at that time. -/
inductive Used : Cpu → Prop where
  | built (config : Config) : Used (Cpu.build config).1
  | served {β : Type} [Bus β] {cpu : Cpu} (bus : β) (request : HostRequest) (before : Used cpu) :
      Used (cpu.serve bus request)

theorem Used.serve_all {β : Type} [Bus β] {cpu : Cpu} (used : cpu.Used) (bus : β)
    (requests : List HostRequest) : (requests.foldl (Cpu.serve · bus ·) cpu).Used := by
  induction requests generalizing cpu with
  | nil => exact used
  | cons request rest ih => exact ih (.served bus request used)

theorem Used.reachable {cpu : Cpu} (used : cpu.Used) : cpu.Reachable := by
  induction used with
  | built config => exact ⟨config, .refl⟩
  | served bus request _ ih =>
    cases request with
    | operate operation => exact ih.leads (.operate bus trivial .refl)
    | translate address intent => exact ih

theorem order?_serve {β : Type} [Bus β] {cpu : Cpu} {bus : β} {request : HostRequest}
    {intent : Intent} (unused : intent ∉ cpu.intents bus request) :
    (cpu.serve bus request).core.mmu.order? intent = cpu.core.mmu.order? intent := by
  cases request with
  | translate address asked => rfl
  | operate operation =>
    cases operation with
    | step => exact order?_step unused
    | execute word => exact order?_execute unused bus
    | reset => exact absurd intent.mem_all unused
    | setSystemReg number value =>
      exact congrArg (Mmu.order? · intent) (Core.mmu_writeSystem cpu.core number value)
    | setInput line asserted =>
      exact congrArg (Mmu.order? · intent) (Core.mmu_setInput cpu.core line asserted)
    | setPc pc => rfl
    | setGpr number value => rfl
    | setFpr number value => rfl
    | setCondition unit condition => rfl

end Cpu

/-- The search orders are permutations of the slots for ever. Whatever is asked of a buffer, or
of a processor that has one, each order lists every slot once, and an order changes only with a
reset or with an access of its own kind. -/
theorem searchOrders_permuted :
    (∀ (requests : List TlbRequest) (intent : Intent),
        ((requests.foldl Tlb.serve Tlb.initial).order intent).Perm (List.finRange 64)) ∧
      (∀ (tlb : Tlb) (request : TlbRequest), ∀ intent ∉ request.intents,
        (tlb.serve request).order intent = tlb.order intent) ∧
      (∀ cpu : Cpu, cpu.Used → ∀ (intent : Intent), ∀ order ∈ cpu.core.mmu.order? intent,
        order.Perm (List.finRange 64)) ∧
      ∀ {β : Type} [Bus β] (cpu : Cpu) (bus : β) (request : HostRequest),
        ∀ intent ∉ cpu.intents bus request,
          (cpu.serve bus request).core.mmu.order? intent = cpu.core.mmu.order? intent := by
  refine ⟨?_, ?_, ?_, ?_⟩
  · intro requests
    exact Tlb.complete_initial.serve_all requests
  · intro tlb request intent unused
    exact Tlb.order_serve unused
  · intro cpu used intent order present
    obtain ⟨buffer, hardware, rfl⟩ := Option.map_eq_some_iff.mp present
    exact used.reachable.complete buffer hardware intent
  · intro β _ cpu bus request intent unused
    exact Cpu.order?_serve unused

/-- The requests by which a host stores an entry for the second page of user space in slot 5. -/
def storePage : List HostRequest :=
  [.operate (.setSystemReg 10 0x1000), .operate (.setSystemReg 2 0x2600),
    .operate (.setSystemReg 0 0x500), .operate (.execute 0x42000002)]

/-- Two words of the third frame. -/
def thirdFrame : Ram := Ram.zeroed 0x2000 8 .big

def withPage : Cpu :=
  storePage.foldl (Cpu.serve · thirdFrame ·) (Cpu.build (.ofModel .r3000A)).1

def pageLoaded : Cpu := withPage.serve thirdFrame (.operate (.execute 0x8c011000))

/-- A load from that page has moved slot 5 in the order of reads, which still lists every slot,
and has left the order of writes alone. -/
theorem searchOrders_permuted_load :
    (∃ order, pageLoaded.core.mmu.order? .read = some order ∧ order ≠ .initial ∧
        order.Perm (List.finRange 64)) ∧
      pageLoaded.core.mmu.order? .write = withPage.core.mmu.order? .write := by
  have stored : withPage.Used := (Cpu.Used.built _).serve_all thirdFrame storePage
  have used : pageLoaded.Used := .served thirdFrame _ stored
  have moved : ∃ order, pageLoaded.core.mmu.order? .read = some order ∧ order ≠ .initial :=
    ⟨_, rfl, by decide +kernel⟩
  have unused : Intent.write ∉ withPage.intents thirdFrame (.operate (.execute 0x8c011000)) := by
    decide +kernel
  obtain ⟨-, -, permuted, kept⟩ := searchOrders_permuted
  obtain ⟨order, present, apart⟩ := moved
  exact ⟨⟨order, present, apart, permuted pageLoaded used .read order present⟩,
    kept withPage thirdFrame _ .write unused⟩

end R3000

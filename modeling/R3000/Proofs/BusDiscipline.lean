import R3000.Proofs.Accesses
import R3000.Proofs.Regime
import R3000.Proofs.WordPrograms

/-!
# Discipline on the bus

What a memory may rely on. A step reads at most one word to fetch its instruction and then makes at
most one call for its data, at aligned addresses only. It makes none when an exception is entered
that is not the memory's own answer to it, and a store changes the whole of its place unless it is
one of the two that store a part of a word.

That no data goes to the memory while the caches are isolated depends on the host: the memory for
data is chosen again when the status register is written under its own number, but not when the host
writes it under a number that merely selects it.
-/
namespace R3000

/-! ### What instructions ask for -/

/-- A write changes every bit of its place. -/
def Request.Whole : Request → Prop
  | read _ _ => True
  | write width _ _ mask => mask = fullMask width

/-- The instruction stores a part of a word. -/
def Instr.storesPart : Instr → Bool
  | store op _ _ _ => op.isPart
  | _ => false

/-- The address of an access has to be aligned, unless it is one of a word, which is then accessed
as a whole. What is stored replaces everything, unless the instruction stores a part. -/
def Issue.Regular (instr : Instr) : Issue → Prop
  | .load access => access.checked = true ∨ access.width = .word
  | .store access =>
    (access.checked = true ∨ access.width = .word) ∧
      (access.mask = fullMask access.width ∨ instr.storesPart = true)
  | .retire _ _ _ | .raise _ => True

theorem Issue.MovesWords.regular {issue : Issue} (moves : issue.MovesWords) (instr : Instr) :
    issue.Regular instr := by
  cases issue with
  | load access => exact .inl moves.2
  | store access => exact ⟨.inl moves.2.1, .inl moves.2.2⟩
  | retire core notes extra => trivial
  | raise trap => trivial

namespace Core

theorem issueInstr_regular (core : Core) (random : Fin 64) (word : Word) (instr : Instr) :
    (core.issueInstr random word instr).Regular instr := by
  cases instr with
  | load op rt base offset =>
    cases op with
    | wordLeft | wordRight => exact .inr rfl
    | _ => exact .inl rfl
  | store op rt base offset =>
    cases op with
    | wordLeft | wordRight => exact ⟨.inr rfl, .inr rfl⟩
    | _ => exact ⟨.inl rfl, .inl rfl⟩
  -- All other instructions move whole words, if any.
  | _ => exact (core.issueInstr_movesWords random word rfl).regular _

/-- Only a demand that finds a place asks for something, and asks for it there. -/
theorem place_of_asks {core : Core} {space : DataSpace} {demand : Demand}
    {request : Word → Request} {asked : Request} (member : asked ∈ core.asks space demand request) :
    ∃ place, core.place demand = .ok place ∧ asked = request place := by
  simp only [asks] at member
  split at member
  · cases member
  next place placed =>
    split at member
    · exact ⟨place, placed, List.mem_singleton.mp member⟩
    · cases member

theorem asks_of_elsewhere {core : Core} {space : DataSpace} (elsewhere : space ≠ .program)
    (demand : Demand) (request : Word → Request) : core.asks space demand request = [] := by
  simp only [asks, if_neg elsewhere]
  split <;> rfl

theorem asks_of_unplaced {core : Core} {demand : Demand} {trap : Trap}
    (unplaced : core.place demand = .error trap) (space : DataSpace) (request : Word → Request) :
    core.asks space demand request = [] := by
  simp only [asks, unplaced]

end Core

namespace Cpu

theorem dataRequests_regular {cpu : Cpu} {word : Word} {asked : Request}
    (member : asked ∈ cpu.dataRequests word) :
    asked.Aligned ∧ (asked.Whole ∨ (decode word).storesPart = true) := by
  have regular := cpu.core.issueInstr_regular cpu.random word (decode word)
  change (cpu.core.issue cpu.random word).Regular (decode word) at regular
  simp only [dataRequests] at member
  split at member
  · cases member
  · cases member
  next load issued =>
    rw [issued] at regular
    obtain ⟨place, placed, rfl⟩ := Core.place_of_asks member
    have aligns : load.demand.checked = true ∨ load.demand.width = .word := regular
    have aligned := Core.aligned_of_place placed aligns
    exact ⟨aligned, .inl trivial⟩
  next store issued =>
    rw [issued] at regular
    obtain ⟨place, placed, rfl⟩ := Core.place_of_asks member
    have aligns : store.demand.checked = true ∨ store.demand.width = .word := regular.1
    have aligned := Core.aligned_of_place placed aligns
    exact ⟨aligned, regular.2⟩

theorem dataRequests_of_elsewhere {cpu : Cpu} (elsewhere : cpu.core.space ≠ .program)
    (word : Word) : cpu.dataRequests word = [] := by
  simp only [dataRequests]
  split
  · rfl
  · rfl
  · exact Core.asks_of_elsewhere elsewhere _ _
  · exact Core.asks_of_elsewhere elsewhere _ _

/-- Of the traps of an instruction, only the answer of the memory comes after a call on it. -/
theorem dataRequests_of_trap {β : Type} [Bus β] {cpu : Cpu} {bus : β} {word : Word} {trap : Trap}
    (raised : cpu.executeTrap bus word = some trap) (unanswered : trap.exception ≠ .busData) :
    cpu.dataRequests word = [] := by
  simp only [executeTrap] at raised
  simp only [dataRequests]
  cases issued : cpu.core.issue cpu.random word with
  | retire core notes extra => rfl
  | raise own => rfl
  | load load =>
    simp only [issued, loadTrap] at raised
    cases placed : cpu.core.place load.demand with
    | error reason => exact Core.asks_of_unplaced placed _ _
    | ok place =>
      simp only [placed] at raised
      split at raised <;> cases raised
      exact absurd rfl unanswered
  | store store =>
    simp only [issued, storeTrap] at raised
    cases placed : cpu.core.place store.demand with
    | error reason => exact Core.asks_of_unplaced placed _ _
    | ok place =>
      simp only [placed] at raised
      split at raised <;> cases raised
      exact absurd rfl unanswered

/-! ### What steps ask for -/

section

variable {β : Type} [Bus β] {cpu : Cpu} {bus : β}

/-- What a step asks for after its fetch is what an instruction asks for that it executes. -/
theorem stepRequests_cases (cpu : Cpu) (bus : β) :
    cpu.stepRequests bus = [] ∨ ∃ word fetched memory,
      (cpu.tick 1).fetch bus = (.ok word, fetched, memory) ∧ cpu.interruptDue = false ∧
        cpu.stepRequests bus = fetched.dataRequests word := by
  simp only [stepRequests]
  split
  · exact .inl rfl
  next word fetched memory fetch =>
    split
    · exact .inl rfl
    next calm => exact .inr ⟨word, fetched, memory, fetch, by simpa using calm, rfl⟩

theorem length_stepRequests_le (cpu : Cpu) (bus : β) : (cpu.stepRequests bus).length ≤ 1 := by
  rcases cpu.stepRequests_cases bus with none | ⟨word, fetched, memory, -, -, same⟩
  · rw [none]
    exact Nat.zero_le 1
  · rw [same]
    exact fetched.length_dataRequests_le word

theorem stepRequests_regular {asked : Request} (member : asked ∈ cpu.stepRequests bus) :
    asked.Aligned ∧ (asked.Whole ∨
      ∃ word, cpu.executed? bus .step = some word ∧ (decode word).storesPart = true) := by
  rcases cpu.stepRequests_cases bus with none | ⟨word, fetched, memory, fetch, calm, same⟩
  · rw [none] at member
    cases member
  · rw [same] at member
    obtain ⟨aligned, masked⟩ := dataRequests_regular member
    refine ⟨aligned, masked.imp_right ?_⟩
    intro part
    exact ⟨word, executed?_of_fetch fetch calm, part⟩

theorem stepRequests_of_trap {trap : Trap} (raised : cpu.stepTrap bus = some trap)
    (unanswered : trap.exception ≠ .busData) : cpu.stepRequests bus = [] := by
  rcases cpu.stepRequests_cases bus with none | ⟨word, fetched, memory, fetch, calm, same⟩
  · exact none
  · simp only [stepTrap, fetch, calm, Bool.false_eq_true, if_false] at raised
    rw [same]
    exact dataRequests_of_trap raised unanswered

theorem stepRequests_of_elsewhere (elsewhere : cpu.core.space ≠ .program) (bus : β) :
    cpu.stepRequests bus = [] := by
  rcases cpu.stepRequests_cases bus with none | ⟨word, fetched, memory, fetch, calm, same⟩
  · exact none
  · rw [same]
    apply dataRequests_of_elsewhere
    -- The fetch has moved a search order only.
    rw [fetch_of_ok fetch]
    have unmoved : (cpu.core.mark cpu.core.fetchDemand).regime = cpu.core.regime :=
      Core.regime_of_forgetOrders (Core.forgetOrders_mark _ _)
    exact fun host => elsewhere ((congrArg Regime.space unmoved).symm.trans host)

end

/-! ### The memory for data -/

end Cpu

/-- Bits that a word has in common with another select the same memory. -/
theorem DataSpace.ofStatus_of_same {word other mask : Word} (same : word &&& mask = other &&& mask)
    (within : mask &&& (Status.isc ||| Status.swc) = Status.isc ||| Status.swc) :
    DataSpace.ofStatus word = DataSpace.ofStatus other := by
  have both := and_of_subset same within
  have isc : hasAny word Status.isc = hasAny other Status.isc := hasAny_of_subset both (by decide)
  have swc : hasAny word Status.swc = hasAny other Status.swc := hasAny_of_subset both (by decide)
  simp only [ofStatus, isc, swc]

theorem DataSpace.ofStatus_ne_program {status : Word} (isolated : hasAny status Status.isc = true) :
    DataSpace.ofStatus status ≠ .program := by
  simp only [ofStatus, isolated, if_true]
  split <;> exact DataSpace.noConfusion

/-- The memory for data is the one that the status register selects. -/
def Regime.Selected (regime : Regime) : Prop := regime.space = .ofStatus regime.status

theorem Regime.After.selected {before after : Regime} {taking : Bool} {deed : Deed}
    {reports : List Bool} (changed : before.After taking deed after reports)
    (names : deed.operation.namesStatus = true) (selected : before.Selected) : after.Selected := by
  cases changed with
  | spared => exact selected
  | entered pending =>
    -- The mode stack lies apart from the bits that select.
    exact selected.trans (DataSpace.ofStatus_of_same (replaceBits_outside _ _ _) (by decide)).symm
  | drove wired driver others => exact selected
  | wroteStatus writes value => rfl
  | wroteAlias writes beyond same value => exact absurd (Deed.eq_of_writes names writes same) beyond
  | wroteCause writes same value => exact selected
  | restored executed =>
    exact selected.trans (DataSpace.ofStatus_of_same (replaceBits_outside _ _ _) (by decide)).symm
  | reset asked booting =>
    rcases booting with rfl | rfl
    · change DataSpace.program = .ofStatus (Status.bev ||| Status.ts)
      rfl
    · change DataSpace.program = .ofStatus Status.bev
      rfl

namespace Cpu

/-- As long as the host writes the status register under its own number, data goes where that
register says. -/
theorem ReachableBy.selected {cpu : Cpu} (reached : cpu.ReachableBy (·.namesStatus = true)) :
    cpu.core.regime.Selected := by
  obtain ⟨config, run⟩ := reached
  apply run.keeps (P := fun cpu => cpu.core.regime.Selected)
  · intro β _ cpu bus operation names before
    exact (operate_after cpu bus operation).selected names before
  · have initial : (Core.build config).regime.Selected := by
      change DataSpace.program = .ofStatus 0
      rfl
    have built := @Core.after_reset (.build config) false ⟨.reset, none, []⟩ rfl
    exact built.selected rfl initial

/-! ### What the memory sees -/

section

variable {β : Type} [Bus β]

/-- What the memory of the host sees of a step is a call that fetches the instruction, if any, and
then one for its data, if any. -/
structure Disciplined (cpu : Cpu) (bus : β) (fetching data : List BusCall) : Prop where
  watched : cpu.step (Watched.start bus) = (cpu.step bus).noting (fetching ++ data).reverse
  fetched : ((cpu.tick 1).fetch (Watched.start bus)).2.2.history = fetching
  fetchOnce : fetching = [] ∨ ∃ place answer, fetching = [.read .word place answer]
  dataOnce : data.length ≤ 1
  aligned : ∀ call ∈ fetching ++ data,
    call.request.address.toNat % call.request.width.bytes = 0
  fetchFailed : ∀ trap, ((cpu.tick 1).fetch bus).1 = .error trap → data = []
  /-- Of all exceptions, only the refusal of the memory comes after a call for data. -/
  entered : ∀ exception ∈ entered (cpu.step bus).notes, exception ≠ .busData → data = []
  masked : ∀ width place value mask answer, .write width place value mask answer ∈ data →
    mask = fullMask width ∨ ∃ word, cpu.executed? bus .step = some word ∧
      (decode word).storesPart = true

/-- A call that asks to read a word is a read of it, with some answer. -/
theorem eq_read_of_request {call : BusCall} {place : Word}
    (same : call.request = .read .word place) : ∃ answer, call = .read .word place answer := by
  cases call with
  | read width address answer =>
    cases same
    exact ⟨answer, rfl⟩
  | write width address value mask answer => cases same

theorem fetch_of_asks {core : Core} {fetching : List BusCall}
    (asks : fetching.map BusCall.request = core.asks .program core.fetchDemand (.read .word)) :
    fetching = [] ∨ ∃ place answer, fetching = [.read .word place answer] ∧
      Width.word.aligned place = true := by
  have one : fetching.length ≤ 1 := by
    rw [← List.length_map, asks]
    exact core.length_asks_le _ _ _
  match fetching, one with
  | [], _ => exact .inl rfl
  | [call], _ =>
    have member : call.request ∈ core.asks .program core.fetchDemand (.read .word) := by
      rw [← asks]
      exact List.mem_singleton_self _
    obtain ⟨place, placed, same⟩ := Core.place_of_asks member
    obtain ⟨answer, rfl⟩ := eq_read_of_request same
    have aligned := Core.aligned_of_place placed (.inl rfl)
    exact .inr ⟨place, answer, rfl, aligned⟩

/-- Steps are disciplined on the bus, in every state and on every memory. And in every state that a
host brings about without writing the status register by another number than its own, no data goes
to the memory while that register isolates the caches. -/
theorem step_disciplined (cpu : Cpu) (bus : β) :
    ∃ fetching data, cpu.Disciplined bus fetching data ∧
      (cpu.ReachableBy (·.namesStatus = true) →
        hasAny cpu.core.system.status 0x00010000 = true → data = []) := by
  obtain ⟨fetching, data, fetched, watched, fetches, asks⟩ := cpu.step_calls bus
  have silent (none : cpu.stepRequests bus = []) : data = [] :=
    List.map_eq_nil_iff.mp (asks.trans none)
  refine ⟨fetching, data, ?_, ?_⟩
  · constructor
    case watched => exact watched
    case fetched => exact fetched
    case fetchOnce =>
      rcases fetch_of_asks fetches with none | ⟨place, answer, one, -⟩
      · exact .inl none
      · exact .inr ⟨place, answer, one⟩
    case dataOnce =>
      rw [← List.length_map, asks]
      exact cpu.length_stepRequests_le bus
    case aligned =>
      intro call member
      rw [← Width.aligned_iff]
      rcases List.mem_append.mp member with first | later
      · rcases fetch_of_asks fetches with rfl | ⟨place, answer, rfl, aligned⟩
        · cases first
        · cases List.mem_singleton.mp first
          exact aligned
      · have asked : call.request ∈ cpu.stepRequests bus := by
          rw [← asks]
          exact List.mem_map_of_mem later
        exact (stepRequests_regular asked).1
    case fetchFailed =>
      intro trap failed
      apply silent
      simp only [stepRequests]
      split
      · rfl
      next fetch =>
        rw [fetch] at failed
        cases failed
    case entered =>
      intro exception member unanswered
      obtain ⟨trap, raised⟩ := stepTrap_of_entered (List.ne_nil_of_mem member)
      rw [entered_step, raised] at member
      cases List.mem_singleton.mp member
      exact silent (stepRequests_of_trap raised unanswered)
    case masked =>
      intro width place value mask answer member
      have asked : .write width place value mask ∈ cpu.stepRequests bus := by
        rw [← asks]
        exact List.mem_map_of_mem member
      exact (stepRequests_regular asked).2
  · intro reached isolated
    apply silent
    apply stepRequests_of_elsewhere
    have selected : cpu.core.space = .ofStatus cpu.core.system.status := reached.selected
    rw [selected]
    exact DataSpace.ofStatus_ne_program isolated

/-- A store of register 9 to where register 8 points, in a memory of 256 bytes. -/
def storeAtHand : Ram := ((Ram.zeroed 0 256 .big).loadWords 128 [0xad090000]).1

/-- Up to there, and then the host isolates the caches by a write of a system register. -/
def isolating (number : Nat) : List Operation :=
  [.setSystemReg 12 0, .setGpr 8 0x80000040, .setGpr 9 7, .setPc 0x80000080,
    .setSystemReg number 0x10000]

def isolated (number : Nat) : Cpu :=
  (Cpu.build (.ofModel .r3051)).1.operateAll storeAtHand (isolating number)

theorem reachable_isolated (number : Nat) {allowed : Operation → Prop}
    (fine : ∀ operation ∈ isolating number, allowed operation) :
    (isolated number).ReachableBy allowed := by
  have run : Leads allowed (Cpu.build (.ofModel .r3051)).1 (isolated number) :=
    Leads.refl.operateAll storeAtHand fine
  exact ⟨.ofModel .r3051, run⟩

/-- When the status register is written by its own number, the memory sees the fetch only. -/
theorem step_disciplined_isolated :
    hasAny (isolated 12).core.system.status 0x00010000 = true ∧
      ∃ fetching, (isolated 12).Disciplined storeAtHand fetching [] := by
  have status : hasAny (isolated 12).core.system.status 0x00010000 = true := by decide +kernel
  have reached : (isolated 12).ReachableBy (·.namesStatus = true) :=
    reachable_isolated 12 (by decide)
  obtain ⟨fetching, data, disciplined, none⟩ := (isolated 12).step_disciplined storeAtHand
  obtain rfl := none reached status
  exact ⟨status, fetching, disciplined⟩

/-- When it is written by number 44, the caches are shown as isolated, and still the memory sees the
store. -/
theorem not_isolated_by_alias :
    (isolated 44).ReachableBetween ∧ hasAny (isolated 44).core.system.status 0x00010000 = true ∧
      ((isolated 44).step (Watched.start storeAtHand)).bus.history.map BusCall.target =
        [(false, .word, 128), (true, .word, 64)] := by
  exact ⟨reachable_isolated 44 (by decide), by decide +kernel, by decide +kernel⟩

end

end Cpu

end R3000

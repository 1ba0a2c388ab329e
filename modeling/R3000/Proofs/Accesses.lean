import R3000.Proofs.Requests
import R3000.Proofs.Trapping

/-!
# The accesses of a step

A step makes at most two accesses, one that fetches its instruction and one that the
instruction asks for. Each comes from a virtual address that is aligned where it has to be
and was translated in the mode of the program. That no other access is made is seen from
outside: a memory that is watched sees the calls of these accesses and no others, and the
outcome does not depend on a cache that none of them goes to.
-/
namespace R3000

/-- An access to a memory, with the virtual address that it came from. -/
structure Access where
  address : Word
  intent : Intent
  space : DataSpace
  width : Width
  /-- Where in the memory it went. -/
  place : Word
  deriving DecidableEq, Repr

/-- What a memory sees of an access: whether it is a write, its width, and its place. -/
def Access.target (access : Access) : Bool × Width × Word :=
  (access.intent == .write, access.width, access.place)

def BusCall.target : BusCall → Bool × Width × Word
  | read width address _ => (false, width, address)
  | write width address _ _ _ => (true, width, address)

/-- What a call asks of the memory. -/
def BusCall.request : BusCall → Request
  | read width address _ => .read width address
  | write width address value mask _ => .write width address value mask

def Request.target : Request → Bool × Width × Word
  | read width address => (false, width, address)
  | write width address _ _ => (true, width, address)

theorem BusCall.target_request (call : BusCall) : call.request.target = call.target := by
  cases call <;> rfl

/-- The calls on the memory of the host that a list of accesses makes. -/
def hostTargets (accesses : List Access) : List (Bool × Width × Word) :=
  (accesses.filter (·.space = .program)).map Access.target

/-! ### The accesses that are made -/

/-- The access that a demand leads to, if it finds a place. -/
def Core.reach (core : Core) (space : DataSpace) (demand : Demand) : List Access :=
  match core.place demand with
  | .error _ => []
  | .ok place => [⟨demand.address, demand.intent, space, demand.width, place⟩]

/-- What a demand asks of the memory of the host, if it finds a place there. -/
def Core.asks (core : Core) (space : DataSpace) (demand : Demand) (request : Word → Request) :
    List Request :=
  match core.place demand with
  | .error _ => []
  | .ok place => if space = .program then [request place] else []

namespace Cpu

/-- The access that an instruction asks for. -/
def dataAccesses (cpu : Cpu) (word : Word) : List Access :=
  match cpu.core.issue cpu.random word with
  | .retire _ _ _ | .raise _ => []
  | .load load => cpu.core.reach cpu.core.space load.demand
  | .store store => cpu.core.reach cpu.core.space store.demand

/-- What an instruction asks of the memory of the host. -/
def dataRequests (cpu : Cpu) (word : Word) : List Request :=
  match cpu.core.issue cpu.random word with
  | .retire _ _ _ | .raise _ => []
  | .load load => cpu.core.asks cpu.core.space load.demand (.read load.width)
  | .store store =>
    cpu.core.asks cpu.core.space store.demand (.write store.width · store.value store.mask)

/-- The accesses of a step: the fetch, and unless it fails or an interrupt is taken the access
of the instruction. -/
def accesses {β : Type} [Bus β] (cpu : Cpu) (bus : β) : List Access :=
  cpu.core.reach .program cpu.core.fetchDemand ++
    match (cpu.tick 1).fetch bus with
    | (.error _, _, _) => []
    | (.ok word, fetched, _) => if cpu.interruptDue then [] else fetched.dataAccesses word

end Cpu

namespace Core

theorem length_asks_le (core : Core) (space : DataSpace) (demand : Demand)
    (request : Word → Request) : (core.asks space demand request).length ≤ 1 := by
  simp only [asks]
  split
  · exact Nat.zero_le 1
  · split
    · exact Nat.le_refl 1
    · exact Nat.zero_le 1

/-- What is asked for is the access that the demand leads to, if it goes to the host. -/
theorem targets_asks {core : Core} {space : DataSpace} {demand : Demand}
    {request : Word → Request}
    (same : ∀ place, (request place).target = (demand.intent == .write, demand.width, place)) :
    (core.asks space demand request).map Request.target =
      hostTargets (core.reach space demand) := by
  simp only [asks, reach]
  cases core.place demand with
  | error trap => rfl
  | ok place => by_cases host : space = .program <;> simp [hostTargets, host, same, Access.target]

end Core

namespace Cpu

theorem length_dataRequests_le (cpu : Cpu) (word : Word) :
    (cpu.dataRequests word).length ≤ 1 := by
  simp only [dataRequests]
  split
  · exact Nat.zero_le 1
  · exact Nat.zero_le 1
  · exact Core.length_asks_le ..
  · exact Core.length_asks_le ..

theorem targets_dataRequests (cpu : Cpu) (word : Word) :
    (cpu.dataRequests word).map Request.target = hostTargets (cpu.dataAccesses word) := by
  simp only [dataRequests, dataAccesses]
  split
  · rfl
  · rfl
  · exact Core.targets_asks fun _ => rfl
  · exact Core.targets_asks fun _ => rfl

end Cpu

/-- A list of one call at most is in the order in which the calls were made. -/
theorem reverse_of_short {calls : List BusCall} {requests : List Request}
    (made : calls.map BusCall.request = requests) (short : requests.length ≤ 1) :
    calls.reverse = calls := by
  have one : calls.length ≤ 1 := by
    rw [← List.length_map, made]
    exact short
  match calls, one with
  | [], _ => rfl
  | [call], _ => rfl

/-! ### Watching the memory -/

/-- The same outcome on a watched memory, with the calls made so far. -/
def Outcome.noting {β : Type} (outcome : Outcome β) (calls : List BusCall) :
    Outcome (Watched β) :=
  ⟨outcome.cpu, ⟨outcome.bus, calls⟩, outcome.notes⟩

namespace Cpu

section

variable {β : Type} [Bus β]

theorem readData_watched (cpu : Cpu) (watched : Watched β) (width : Width) (place : Word) :
    ∃ fresh, cpu.readData watched width place =
        ((cpu.readData watched.memory width place).1,
          ⟨(cpu.readData watched.memory width place).2, fresh ++ watched.calls⟩) ∧
      fresh.map BusCall.request =
        if cpu.core.space = .program then [.read width place] else [] := by
  simp only [readData]
  cases cpu.core.space with
  | program => exact ⟨[.read width place _], rfl, rfl⟩
  | instructionCache | dataCache => exact ⟨[], rfl, rfl⟩

theorem writeData_watched (cpu : Cpu) (watched : Watched β) (width : Width) (place : Word)
    (value mask : BitVec width.bits) :
    ∃ fresh, cpu.writeData watched width place value mask =
        ((cpu.writeData watched.memory width place value mask).1,
          (cpu.writeData watched.memory width place value mask).2.1,
          ⟨(cpu.writeData watched.memory width place value mask).2.2, fresh ++ watched.calls⟩) ∧
      fresh.map BusCall.request =
        if cpu.core.space = .program then [.write width place value mask] else [] := by
  simp only [writeData]
  cases cpu.core.space with
  | program => exact ⟨[.write width place value mask _], rfl, rfl⟩
  | instructionCache | dataCache => exact ⟨[], rfl, rfl⟩

theorem load_watched (cpu : Cpu) (watched : Watched β) (load : Load) :
    ∃ fresh, cpu.load watched load =
        (cpu.load watched.memory load).noting (fresh ++ watched.calls) ∧
      fresh.map BusCall.request =
        cpu.core.asks cpu.core.space load.demand (.read load.width) := by
  rw [load_eq, load_eq]
  simp only [Core.asks]
  cases cpu.core.place load.demand with
  | error trap => exact ⟨[], rfl, rfl⟩
  | ok place =>
    obtain ⟨fresh, seen, requests⟩ := readData_watched cpu watched load.width place
    refine ⟨fresh, ?_, requests⟩
    simp only [seen]
    generalize cpu.readData watched.memory load.width place = answer
    obtain ⟨value, memory⟩ := answer
    cases value <;> rfl

theorem store_watched (cpu : Cpu) (watched : Watched β) (store : Store) :
    ∃ fresh, cpu.store watched store =
        (cpu.store watched.memory store).noting (fresh ++ watched.calls) ∧
      fresh.map BusCall.request = cpu.core.asks cpu.core.space store.demand
        (.write store.width · store.value store.mask) := by
  rw [store_eq, store_eq]
  simp only [Core.asks]
  cases cpu.core.place store.demand with
  | error trap => exact ⟨[], rfl, rfl⟩
  | ok place =>
    obtain ⟨fresh, seen, requests⟩ :=
      writeData_watched cpu watched store.width place store.value store.mask
    refine ⟨fresh, ?_, requests⟩
    simp only [seen]
    generalize cpu.writeData watched.memory store.width place store.value store.mask = answer
    obtain ⟨value, written, memory⟩ := answer
    cases value <;> rfl

theorem execute_watched (cpu : Cpu) (watched : Watched β) (word : Word) :
    ∃ fresh, cpu.execute watched word =
        (cpu.execute watched.memory word).noting (fresh ++ watched.calls) ∧
      fresh.map BusCall.request = cpu.dataRequests word := by
  simp only [execute, dataRequests]
  cases cpu.core.issue cpu.random word with
  | retire core notes extra => exact ⟨[], rfl, rfl⟩
  | raise trap => exact ⟨[], rfl, rfl⟩
  | load load => exact load_watched cpu watched load
  | store store => exact store_watched cpu watched store

theorem fetch_watched (cpu : Cpu) (watched : Watched β) :
    ∃ fresh, cpu.fetch watched =
        ((cpu.fetch watched.memory).1, (cpu.fetch watched.memory).2.1,
          ⟨(cpu.fetch watched.memory).2.2, fresh ++ watched.calls⟩) ∧
      fresh.map BusCall.request =
        cpu.core.asks .program cpu.core.fetchDemand (.read .word) := by
  rw [fetch_eq, fetch_eq]
  simp only [Core.asks]
  cases cpu.core.place cpu.core.fetchDemand with
  | error trap => exact ⟨[], rfl, rfl⟩
  | ok place =>
    refine ⟨[.read .word place (Bus.read watched.memory .word place).1], ?_, rfl⟩
    simp only [Bus.read]
    generalize Bus.read watched.memory .word place = answer
    obtain ⟨value, memory⟩ := answer
    cases value <;> rfl

/-- What a step asks of the memory of the host after its fetch. -/
def stepRequests (cpu : Cpu) (bus : β) : List Request :=
  match (cpu.tick 1).fetch bus with
  | (.error _, _, _) => []
  | (.ok word, fetched, _) => if cpu.interruptDue then [] else fetched.dataRequests word

/-- Watching a step changes nothing and sees its calls, those of the fetch first. -/
theorem step_calls (cpu : Cpu) (bus : β) :
    ∃ fetching data, ((cpu.tick 1).fetch (Watched.start bus)).2.2.history = fetching ∧
      cpu.step (Watched.start bus) = (cpu.step bus).noting (fetching ++ data).reverse ∧
      fetching.map BusCall.request =
        cpu.core.asks .program cpu.core.fetchDemand (.read .word) ∧
      data.map BusCall.request = cpu.stepRequests bus := by
  obtain ⟨first, seen, fetching⟩ := fetch_watched (cpu.tick 1) (Watched.start bus)
  have history : ((cpu.tick 1).fetch (Watched.start bus)).2.2.history = first := by
    rw [seen]
    simp only [Watched.history, Watched.start, List.append_nil]
    exact reverse_of_short fetching (Core.length_asks_le ..)
  have inOrder : first.reverse = first := reverse_of_short fetching (Core.length_asks_le ..)
  simp only [stepRequests]
  simp only [Watched.start, List.append_nil] at seen history ⊢
  rcases cpu.step_cases bus with ⟨trap, fetched, memory, fetch, -, stepped⟩ |
    ⟨word, fetched, memory, fetch, due, -, stepped⟩ |
    ⟨word, fetched, memory, fetch, calm, -, stepped⟩
  · rw [fetch] at seen
    refine ⟨first, [], history, ?_, fetching, ?_⟩
    · rw [stepped, step_of_fetch_error seen, List.append_nil, inOrder]
      rfl
    · simp [fetch]
  · rw [fetch] at seen
    refine ⟨first, [], history, ?_, fetching, ?_⟩
    · rw [stepped, step_of_interrupt seen due, List.append_nil, inOrder]
      rfl
    · simp [fetch, due]
  · rw [fetch] at seen
    -- A watched memory lists its calls with the latest first, so those of the instruction are put
    -- in front of that of the fetch.
    obtain ⟨second, executed, asking⟩ := execute_watched fetched ⟨memory, first⟩ word
    have after : second.reverse = second := reverse_of_short asking (length_dataRequests_le ..)
    refine ⟨first, second, history, ?_, fetching, ?_⟩
    · rw [stepped, step_of_execute seen calm, executed, List.reverse_append, inOrder, after]
      rfl
    · simp [fetch, calm, asking]

/-- The calls of a step are those of the accesses it makes, in their order. -/
theorem step_watched (cpu : Cpu) (bus : β) :
    ∃ calls, cpu.step (Watched.start bus) = (cpu.step bus).noting calls ∧
      calls.reverse.map BusCall.target = hostTargets (cpu.accesses bus) := by
  obtain ⟨fetching, data, -, stepped, fetched, asked⟩ := cpu.step_calls bus
  have targets (calls : List BusCall) :
      calls.map BusCall.target = (calls.map BusCall.request).map Request.target := by
    rw [List.map_map]
    exact List.map_congr_left fun call _ => call.target_request.symm
  have fetchTargets : (cpu.core.asks .program cpu.core.fetchDemand (.read .word)).map
      Request.target = hostTargets (cpu.core.reach .program cpu.core.fetchDemand) :=
    Core.targets_asks fun _ => rfl
  refine ⟨_, stepped, ?_⟩
  rw [List.reverse_reverse, List.map_append, targets fetching, targets data, fetched, asked,
    fetchTargets]
  simp only [stepRequests, accesses]
  split
  · simp [hostTargets]
  · split
    · simp [hostTargets]
    · rw [targets_dataRequests]
      simp [hostTargets]

end

/-! ### Other caches -/

/-- The cache that a data space selects. -/
def cache? (cpu : Cpu) : DataSpace → Option CacheRam
  | .program => none
  | .instructionCache => some cpu.icache
  | .dataCache => some cpu.dcache

/-- The processor with another cache in place of that of a data space. -/
def withCache (cpu : Cpu) (space : DataSpace) (cache : CacheRam) : Cpu :=
  match space with
  | .program => cpu
  | .instructionCache => { cpu with icache := cache }
  | .dataCache => { cpu with dcache := cache }

/-- The reads among the accesses find in another cache what they find in that of the space. -/
def Agrees (cpu : Cpu) (space : DataSpace) (accesses : List Access) (cache : CacheRam) : Prop :=
  ∀ access ∈ accesses, access.space = space → access.intent ≠ .write →
    ∀ own, cpu.cache? space = some own →
      cache.read access.width access.place = own.read access.width access.place

end Cpu

/-- What the writes among the accesses make of a cache: one of them at most changes it. -/
def WrittenBy (accesses : List Access) (space : DataSpace) (cache after : CacheRam) : Prop :=
  after = cache ∨ ∃ access ∈ accesses, access.space = space ∧ access.intent = .write ∧
    ∃ value mask, after = cache.write access.width access.place value mask

theorem WrittenBy.mono {accesses more : List Access} {space : DataSpace}
    {cache after : CacheRam} (written : WrittenBy accesses space cache after)
    (included : accesses ⊆ more) : WrittenBy more space cache after := by
  rcases written with unchanged | ⟨access, member, stored⟩
  · exact .inl unchanged
  · exact .inr ⟨access, included member, stored⟩

def Outcome.withCache {β : Type} (outcome : Outcome β) (space : DataSpace) (cache : CacheRam) :
    Outcome β :=
  { outcome with cpu := outcome.cpu.withCache space cache }

namespace Cpu

section

variable {β : Type} {space : DataSpace}

theorem withCache_core (cpu : Cpu) (space : DataSpace) (cache : CacheRam) (core : Core) :
    { cpu.withCache space cache with core } = { cpu with core }.withCache space cache := by
  cases space <;> rfl

@[simp] theorem core_withCache (cpu : Cpu) (space : DataSpace) (cache : CacheRam) :
    (cpu.withCache space cache).core = cpu.core := by
  cases space <;> rfl

@[simp] theorem random_withCache (cpu : Cpu) (space : DataSpace) (cache : CacheRam) :
    (cpu.withCache space cache).random = cpu.random := by
  cases space <;> rfl

theorem tick_withCache (cpu : Cpu) (space : DataSpace) (cache : CacheRam) (cycles : Nat) :
    (cpu.withCache space cache).tick cycles = (cpu.tick cycles).withCache space cache := by
  cases space <;> rfl

theorem trap_withCache (cpu : Cpu) (bus : β) (trap : Trap) (space : DataSpace)
    (cache : CacheRam) :
    (cpu.withCache space cache).trap bus trap = (cpu.trap bus trap).withCache space cache := by
  cases space <;> rfl

theorem advance_withCache (outcome : Outcome β) (space : DataSpace) (cache : CacheRam) :
    advance (outcome.withCache space cache) = (advance outcome).withCache space cache := by
  cases space <;> rfl

variable [Bus β]

theorem readData_withCache {cpu : Cpu} {cache : CacheRam} {width : Width} {place : Word}
    (sameAnswer : cpu.core.space = space → ∀ own, cpu.cache? space = some own →
      cache.read width place = own.read width place) (bus : β) :
    (cpu.withCache space cache).readData bus width place = cpu.readData bus width place := by
  -- The other cache is looked into only when it stands in the space that is selected.
  simp only [readData, core_withCache]
  cases selected : cpu.core.space with
  | program => rfl
  | instructionCache =>
    cases space with
    | instructionCache =>
      have same := sameAnswer selected cpu.icache rfl
      simp only [withCache, same]
    | program | dataCache => rfl
  | dataCache =>
    cases space with
    | dataCache =>
      have same := sameAnswer selected cpu.dcache rfl
      simp only [withCache, same]
    | program | instructionCache => rfl

theorem writeData_withCache (cpu : Cpu) (space : DataSpace) (cache : CacheRam) (bus : β)
    (width : Width) (place : Word) (value mask : BitVec width.bits) :
    ∃ after, (cpu.withCache space cache).writeData bus width place value mask =
        ((cpu.writeData bus width place value mask).1,
          (cpu.writeData bus width place value mask).2.1.withCache space after,
          (cpu.writeData bus width place value mask).2.2) ∧
      (after = cache ∨ cpu.core.space = space ∧ after = cache.write width place value mask) := by
  simp only [writeData, core_withCache]
  cases selected : cpu.core.space with
  | program => exact ⟨cache, by cases space <;> rfl, .inl rfl⟩
  | instructionCache =>
    cases space with
    | instructionCache => exact ⟨cache.write width place value mask, rfl, .inr ⟨rfl, rfl⟩⟩
    | program | dataCache => exact ⟨cache, rfl, .inl rfl⟩
  | dataCache =>
    cases space with
    | dataCache => exact ⟨cache.write width place value mask, rfl, .inr ⟨rfl, rfl⟩⟩
    | program | instructionCache => exact ⟨cache, rfl, .inl rfl⟩

theorem reach_of_place {core : Core} {demand : Demand} {place : Word} (target : DataSpace)
    (placed : core.place demand = .ok place) :
    core.reach target demand =
      [⟨demand.address, demand.intent, target, demand.width, place⟩] := by
  simp only [Core.reach, placed]

theorem load_withCache {cpu : Cpu} {load : Load} {cache : CacheRam}
    (agrees : cpu.Agrees space (cpu.core.reach cpu.core.space load.demand) cache) (bus : β) :
    (cpu.withCache space cache).load bus load = (cpu.load bus load).withCache space cache := by
  rw [load_eq, load_eq]
  simp only [core_withCache]
  cases placed : cpu.core.place load.demand with
  | error trap => exact trap_withCache ..
  | ok place =>
    -- The load makes one access, and the caches agree where it goes.
    rw [reach_of_place _ placed] at agrees
    have sameAnswer := fun selected =>
      agrees _ (List.mem_singleton_self _) selected Intent.noConfusion
    simp only [Load.demand] at sameAnswer
    simp only [readData_withCache sameAnswer, mark, core_withCache, withCache_core]
    split
    · exact trap_withCache ..
    · rfl

theorem store_withCache (cpu : Cpu) (store : Store) (space : DataSpace) (cache : CacheRam)
    (bus : β) :
    ∃ after, (cpu.withCache space cache).store bus store =
        (cpu.store bus store).withCache space after ∧
      WrittenBy (cpu.core.reach cpu.core.space store.demand) space cache after := by
  rw [store_eq, store_eq]
  simp only [core_withCache]
  cases placed : cpu.core.place store.demand with
  | error trap => exact ⟨cache, trap_withCache .., .inl rfl⟩
  | ok place =>
    obtain ⟨after, stored, outcome⟩ :=
      writeData_withCache cpu space cache bus store.width place store.value store.mask
    have written : WrittenBy (cpu.core.reach cpu.core.space store.demand) space cache after := by
      rw [reach_of_place _ placed]
      rcases outcome with unchanged | ⟨selected, changed⟩
      · exact .inl unchanged
      · exact .inr ⟨_, List.mem_singleton_self _, selected, rfl, _, _, changed⟩
    simp only [stored, mark, core_withCache, withCache_core]
    split
    · -- A refused store has written nothing.
      exact ⟨cache, trap_withCache .., .inl rfl⟩
    · exact ⟨after, rfl, written⟩

theorem execute_withCache {cpu : Cpu} {word : Word} {cache : CacheRam}
    (agrees : cpu.Agrees space (cpu.dataAccesses word) cache) (bus : β) :
    ∃ after, (cpu.withCache space cache).execute bus word =
        (cpu.execute bus word).withCache space after ∧
      WrittenBy (cpu.dataAccesses word) space cache after := by
  simp only [dataAccesses] at agrees ⊢
  simp only [execute, core_withCache, random_withCache]
  cases issued : cpu.core.issue cpu.random word with
  | retire core notes extra =>
    refine ⟨cache, ?_, .inl rfl⟩
    simp only [withCache_core, tick_withCache]
    rfl
  | raise trap => exact ⟨cache, trap_withCache .., .inl rfl⟩
  | load load =>
    simp only [issued] at agrees
    exact ⟨cache, load_withCache agrees bus, .inl rfl⟩
  | store store => exact store_withCache cpu store space cache bus

/-- Fetches look into no cache. -/
theorem fetch_withCache (cpu : Cpu) (bus : β) (space : DataSpace) (cache : CacheRam) :
    (cpu.withCache space cache).fetch bus =
      ((cpu.fetch bus).1, (cpu.fetch bus).2.1.withCache space cache, (cpu.fetch bus).2.2) := by
  rw [fetch_eq, fetch_eq]
  simp only [mark, core_withCache, withCache_core]
  cases cpu.core.place cpu.core.fetchDemand with
  | error trap => rfl
  | ok place =>
    simp only
    split <;> rfl

/-- A step finds in a cache what its reads find there, and changes what its writes change:
with another cache that agrees on the reads it goes the same way. -/
theorem step_withCache {cpu : Cpu} {bus : β} {cache : CacheRam}
    (agrees : cpu.Agrees space (cpu.accesses bus) cache) :
    ∃ after, (cpu.withCache space cache).step bus = (cpu.step bus).withCache space after ∧
      WrittenBy (cpu.accesses bus) space cache after := by
  have fetches := fetch_withCache (cpu.tick 1) bus space cache
  rw [← tick_withCache] at fetches
  have sameDue : (cpu.withCache space cache).interruptDue = cpu.interruptDue := by
    simp only [interruptDue, core_withCache]
  simp only [accesses] at agrees ⊢
  rcases cpu.step_cases bus with ⟨trap, fetched, memory, fetch, -, stepped⟩ |
    ⟨word, fetched, memory, fetch, due, -, stepped⟩ |
    ⟨word, fetched, memory, fetch, calm, -, stepped⟩
  · rw [fetch] at fetches
    refine ⟨cache, ?_, .inl rfl⟩
    rw [stepped, step_of_fetch_error fetches, trap_withCache, advance_withCache]
  · rw [fetch] at fetches
    refine ⟨cache, ?_, .inl rfl⟩
    rw [stepped, step_of_interrupt fetches (sameDue.trans due), trap_withCache,
      advance_withCache]
  · rw [fetch] at fetches
    -- The caches of the fetched state are those of the step, so the agreement carries over.
    have sameOwn : fetched.cache? space = cpu.cache? space := by
      rw [fetch_of_ok fetch]
      cases space <;> rfl
    simp only [fetch, calm] at agrees ⊢
    have asked : fetched.Agrees space (fetched.dataAccesses word) cache := by
      intro access member selected reads own present
      rw [sameOwn] at present
      exact agrees access (List.mem_append_right _ member) selected reads own present
    obtain ⟨after, executed, written⟩ := execute_withCache asked memory
    refine ⟨after, ?_, ?_⟩
    · rw [stepped, step_of_execute fetches (sameDue.trans calm), executed, advance_withCache]
    · exact written.mono (List.subset_append_right _ _)

end

/-! ### Both views together -/

section

variable {β : Type} [Bus β]

/-- The step on `bus` makes the accesses of a list and no others. -/
structure MakesOnly (cpu : Cpu) (bus : β) (accesses : List Access) : Prop where
  /-- Each place is the translation of its virtual address in the mode of the program. -/
  translated : ∀ access ∈ accesses, ∃ physical,
    cpu.core.resolve cpu.core.userMode access.address access.intent = .ok physical ∧
      (access.place = physical ∨ access.place = containingWord physical)
  /-- The memory of the host, which answers as ever when it is watched, sees the calls of the
  accesses that go to it. -/
  watched : ∃ calls, cpu.step (Watched.start bus) = (cpu.step bus).noting calls ∧
    calls.reverse.map BusCall.target = hostTargets accesses
  /-- A cache might be any other in which the reads find the same, and is changed by the writes
  in that place only. -/
  cached : ∀ space cache, cpu.Agrees space accesses cache →
    ∃ after, (cpu.withCache space cache).step bus = (cpu.step bus).withCache space after ∧
      WrittenBy accesses space cache after

theorem translated_of_reach {core : Core} {space : DataSpace} {demand : Demand}
    {access : Access} (member : access ∈ core.reach space demand) :
    access.intent = demand.intent ∧ ∃ physical,
      core.resolve core.userMode access.address access.intent = .ok physical ∧
        (access.place = physical ∨ access.place = containingWord physical) := by
  simp only [Core.reach] at member
  split at member
  · cases member
  next place placed =>
    cases List.mem_singleton.mp member
    exact ⟨rfl, Core.resolve_of_place placed⟩

theorem translated_of_dataAccesses {cpu : Cpu} {word : Word} {access : Access}
    (member : access ∈ cpu.dataAccesses word) :
    access.intent ≠ .fetch ∧ ∃ physical,
      cpu.core.resolve cpu.core.userMode access.address access.intent = .ok physical ∧
        (access.place = physical ∨ access.place = containingWord physical) := by
  simp only [dataAccesses] at member
  split at member
  · cases member
  · cases member
  all_goals
    obtain ⟨intent, translated⟩ := translated_of_reach member
    refine ⟨?_, translated⟩
    rw [intent]
    exact Intent.noConfusion

theorem step_makesOnly (cpu : Cpu) (bus : β) : cpu.MakesOnly bus (cpu.accesses bus) where
  translated := by
    intro access member
    simp only [accesses] at member
    rcases List.mem_append.mp member with fetching | asking
    · exact (translated_of_reach fetching).2
    · split at asking
      · cases asking
      next word fetched memory succeeded =>
        split at asking
        · cases asking
        · obtain ⟨data, physical, resolved, placed⟩ := translated_of_dataAccesses asking
          refine ⟨physical, ?_, placed⟩
          -- The fetch has moved its own search order only, which no data access uses.
          have unmoved : (cpu.core.mark cpu.core.fetchDemand).resolve cpu.core.userMode
              access.address access.intent =
                cpu.core.resolve cpu.core.userMode access.address access.intent :=
            Core.resolve_touch_of_ne data.symm
          have sameMode := Core.userMode_mark cpu.core cpu.core.fetchDemand
          rw [fetch_of_ok succeeded] at resolved
          rw [← unmoved, ← sameMode]
          exact resolved
  watched := step_watched cpu bus
  cached := fun _ _ agrees => step_withCache agrees

end

end Cpu

end R3000

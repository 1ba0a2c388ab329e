import R3000.Proofs.BusDiscipline
import R3000.Proofs.Courses

/-!
# Where data goes

A processor works on three memories, that of its host and its two caches. Instructions are always
fetched from the host. Data is read and written in the one memory that two bits of the status
register select, and nowhere else. So a program that isolates the caches leaves the memory of the
host alone, and one that does not leaves the caches alone. The choice is made when the status
register is written or the processor is reset; exceptions, returns from them and the instructions on
the lookaside buffer do not touch it.

This depends on a host that writes the status register under its own number.
-/
namespace R3000

namespace Bus

variable {β : Type} [Bus β]

theorem serveAll_append (memory : β) (first rest : List Request) :
    (serveAll memory (first ++ rest)).2 = (serveAll (serveAll memory first).2 rest).2 := by
  induction first generalizing memory with
  | nil => rfl
  | cons request later ih => exact ih (serve memory request).2

/-- A memory that reads leave alone is left alone by any number of them. -/
theorem serveAll_reads (quiet : ∀ (memory : β) width place, (read memory width place).2 = memory)
    (memory : β) (places : List Word) :
    (serveAll memory (places.map (.read .word))).2 = memory := by
  induction places with
  | nil => rfl
  | cons place rest ih =>
    have first : (serve memory (.read .word place)).2 = memory := quiet memory .word place
    simp only [List.map_cons, serveAll, first]
    exact ih

end Bus

/-! ### Three memories -/

structure Memories (β : Type) where
  host : β
  icache : CacheRam
  dcache : CacheRam

/-- The memories after requests to the one that a space selects. -/
def Memories.serve {β : Type} [Bus β] (memories : Memories β) (space : DataSpace)
    (requests : List Request) : Memories β :=
  match space with
  | .program => { memories with host := (Bus.serveAll memories.host requests).2 }
  | .instructionCache => { memories with icache := (Bus.serveAll memories.icache requests).2 }
  | .dataCache => { memories with dcache := (Bus.serveAll memories.dcache requests).2 }

/-- The reply to a request to the memory that a space selects. -/
def Memories.reply {β : Type} [Bus β] (memories : Memories β) (space : DataSpace)
    (request : Request) : Reply :=
  match space with
  | .program => (Bus.serve memories.host request).1
  | .instructionCache => (Bus.serve memories.icache request).1
  | .dataCache => (Bus.serve memories.dcache request).1

section

variable {β : Type} [Bus β]

@[simp] theorem Memories.serve_nil (memories : Memories β) (space : DataSpace) :
    memories.serve space [] = memories := by
  cases space <;> rfl

theorem Memories.host_serve_of_elsewhere {space : DataSpace} (elsewhere : space ≠ .program)
    (memories : Memories β) (requests : List Request) :
    (memories.serve space requests).host = memories.host := by
  cases space with
  | program => exact absurd rfl elsewhere
  | instructionCache | dataCache => rfl

/-- What data is read is the reply of the memory that is selected. -/
theorem Cpu.readData_of_reply {cpu : Cpu} {bus : β} {width : Width} {place : Word}
    {answer : Except BusError (BitVec width.bits)}
    (replied : (Memories.mk bus cpu.icache cpu.dcache).reply cpu.core.space (.read width place) =
      .value width answer) : (cpu.readData bus width place).1 = answer := by
  simp only [readData]
  cases space : cpu.core.space <;> rw [space] at replied <;> cases replied <;> rfl

end

/-! ### Requests of instructions and steps -/

namespace Cpu

/-- What an instruction asks of the memory for data. -/
def dataAsks (cpu : Cpu) (word : Word) : List Request :=
  match cpu.core.issue cpu.random word with
  | .retire _ _ _ | .raise _ => []
  | .load load => cpu.core.asks .program load.demand (.read load.width)
  | .store store =>
    cpu.core.asks .program store.demand (.write store.width · store.value store.mask)

/-- What a processor asks of the host to fetch an instruction. -/
def fetchAsks (cpu : Cpu) : List Request :=
  cpu.core.asks .program cpu.core.fetchDemand (.read .word)

def memories {β : Type} (cpu : Cpu) (bus : β) : Memories β := ⟨bus, cpu.icache, cpu.dcache⟩

section

variable {β : Type} [Bus β]

/-- What a step asks of the memory for data. -/
def stepAsks (cpu : Cpu) (bus : β) : List Request :=
  match (cpu.tick 1).fetch bus with
  | (.error _, _, _) => []
  | (.ok word, fetched, _) => if cpu.interruptDue then [] else fetched.dataAsks word

end

end Cpu

/-- The memories after an operation. -/
def Outcome.memories {β : Type} (outcome : Outcome β) : Memories β :=
  outcome.cpu.memories outcome.bus

namespace Cpu

section

variable {β : Type} [Bus β]

theorem memories_load (cpu : Cpu) (bus : β) (load : Load) :
    (cpu.load bus load).memories = (cpu.memories bus).serve cpu.core.space
      (cpu.core.asks .program load.demand (.read load.width)) := by
  rw [load_eq]
  simp only [Core.asks]
  cases cpu.core.place load.demand with
  | error trap => exact (Memories.serve_nil _ _).symm
  | ok place =>
    -- Only the host may answer with an error, and it has served the request then as well.
    simp only [readData]
    cases space : cpu.core.space with
    | program =>
      simp only [if_true, Memories.serve, Bus.serveAll, Bus.serve, memories]
      generalize Bus.read bus load.width place = answer
      obtain ⟨value, memory⟩ := answer
      cases value <;> rfl
    | instructionCache | dataCache => rfl

theorem memories_store (cpu : Cpu) (bus : β) (store : Store) :
    (cpu.store bus store).memories = (cpu.memories bus).serve cpu.core.space
      (cpu.core.asks .program store.demand (.write store.width · store.value store.mask)) := by
  rw [store_eq]
  simp only [Core.asks]
  cases cpu.core.place store.demand with
  | error trap => exact (Memories.serve_nil _ _).symm
  | ok place =>
    simp only [writeData]
    cases space : cpu.core.space with
    | program =>
      simp only [if_true, Memories.serve, Bus.serveAll, Bus.serve, memories]
      generalize Bus.write bus store.width place store.value store.mask = answer
      obtain ⟨done, memory⟩ := answer
      cases done <;> rfl
    | instructionCache | dataCache => rfl

theorem memories_execute (cpu : Cpu) (bus : β) (word : Word) :
    (cpu.execute bus word).memories =
      (cpu.memories bus).serve cpu.core.space (cpu.dataAsks word) := by
  simp only [execute, dataAsks]
  cases cpu.core.issue cpu.random word with
  | retire core notes extra => exact (Memories.serve_nil _ _).symm
  | raise trap => exact (Memories.serve_nil _ _).symm
  | load load => exact cpu.memories_load bus load
  | store store => exact cpu.memories_store bus store

/-- A fetch asks the host, and leaves all else as it is. -/
theorem memories_fetch (cpu : Cpu) (bus : β) :
    (cpu.fetch bus).2.1.memories (cpu.fetch bus).2.2 =
      (cpu.memories bus).serve .program cpu.fetchAsks := by
  rw [fetch_eq]
  simp only [fetchAsks, Core.asks]
  cases cpu.core.place cpu.core.fetchDemand with
  | error trap => rfl
  | ok place =>
    simp only [if_true, Memories.serve, Bus.serveAll, Bus.serve, memories]
    generalize Bus.read bus .word place = answer
    obtain ⟨value, memory⟩ := answer
    cases value <;> rfl

theorem space_of_fetch {cpu fetched : Cpu} {bus memory : β} {word : Word}
    (fetch : (cpu.tick 1).fetch bus = (.ok word, fetched, memory)) :
    fetched.core.space = cpu.core.space := by
  rw [fetch_of_ok fetch]
  exact congrArg Regime.space (Core.regime_of_forgetOrders (Core.forgetOrders_mark _ _))

/-- What a step makes of the memories: the host serves its fetch, and the memory for data serves
what its instruction asks for. -/
theorem memories_step (cpu : Cpu) (bus : β) :
    (cpu.step bus).memories =
      ((cpu.memories bus).serve .program cpu.fetchAsks).serve cpu.core.space
        (cpu.stepAsks bus) := by
  have fetching : ((cpu.tick 1).fetch bus).2.1.memories ((cpu.tick 1).fetch bus).2.2 =
      (cpu.memories bus).serve .program cpu.fetchAsks := memories_fetch (cpu.tick 1) bus
  rw [← fetching]
  simp only [stepAsks]
  rcases cpu.step_cases bus with ⟨trap, fetched, memory, fetch, -, stepped⟩ |
    ⟨word, fetched, memory, fetch, due, -, stepped⟩ |
    ⟨word, fetched, memory, fetch, calm, -, stepped⟩
  -- Without a word, and in favour of an interrupt, no instruction is executed.
  · rw [stepped, fetch, Memories.serve_nil]
    rfl
  · simp only [fetch, due, if_true, Memories.serve_nil]
    rw [stepped]
    rfl
  · have sameSpace : fetched.core.space = cpu.core.space := space_of_fetch fetch
    have executed := fetched.memories_execute memory word
    simp only [fetch, calm, Bool.false_eq_true, if_false, ← sameSpace]
    rw [stepped]
    exact executed

/-! ### Accesses -/

/-- The access of the instruction of a step. -/
def stepAccesses (cpu : Cpu) (bus : β) : List Access :=
  match (cpu.tick 1).fetch bus with
  | (.error _, _, _) => []
  | (.ok word, fetched, _) => if cpu.interruptDue then [] else fetched.dataAccesses word

theorem accesses_eq (cpu : Cpu) (bus : β) :
    cpu.accesses bus =
      cpu.core.reach .program cpu.core.fetchDemand ++ cpu.stepAccesses bus := rfl

omit [Bus β] in
theorem targets_asks_program {core : Core} {demand : Demand} {request : Word → Request}
    (same : ∀ place, (request place).target = (demand.intent == .write, demand.width, place))
    (space : DataSpace) :
    (core.asks .program demand request).map Request.target =
      (core.reach space demand).map Access.target := by
  simp only [Core.asks, Core.reach]
  cases core.place demand with
  | error trap => rfl
  | ok place => simp [same, Access.target]

omit [Bus β] in
theorem targets_dataAsks (cpu : Cpu) (word : Word) :
    (cpu.dataAsks word).map Request.target = (cpu.dataAccesses word).map Access.target := by
  simp only [dataAsks, dataAccesses]
  cases cpu.core.issue cpu.random word with
  | retire core notes extra | raise trap => rfl
  | load load => exact targets_asks_program (fun _ => rfl) _
  | store store => exact targets_asks_program (fun _ => rfl) _

theorem targets_stepAsks (cpu : Cpu) (bus : β) :
    (cpu.stepAsks bus).map Request.target = (cpu.stepAccesses bus).map Access.target := by
  simp only [stepAsks, stepAccesses]
  split
  · rfl
  next word fetched memory fetch =>
    split
    · rfl
    · exact fetched.targets_dataAsks word

omit [Bus β] in
theorem space_of_reach {core : Core} {space : DataSpace} {demand : Demand} {access : Access}
    (member : access ∈ core.reach space demand) :
    access.intent = demand.intent ∧ access.space = space := by
  simp only [Core.reach] at member
  split at member
  · cases member
  · cases List.mem_singleton.mp member
    exact ⟨rfl, rfl⟩

theorem fetch_of_reach {cpu : Cpu} {access : Access}
    (member : access ∈ cpu.core.reach .program cpu.core.fetchDemand) :
    access.intent = .fetch ∧ access.space = .program := space_of_reach member

/-- The access of an instruction is none of a fetch, and goes to the memory for data. -/
theorem data_of_stepAccesses {cpu : Cpu} {bus : β} {access : Access}
    (member : access ∈ cpu.stepAccesses bus) :
    access.intent ≠ .fetch ∧ access.space = cpu.core.space := by
  simp only [stepAccesses] at member
  split at member
  · cases member
  next word fetched memory fetch =>
    split at member
    · cases member
    · rw [← space_of_fetch fetch]
      refine ⟨(translated_of_dataAccesses member).1, ?_⟩
      simp only [dataAccesses] at member
      split at member
      · cases member
      · cases member
      · exact (space_of_reach member).2
      · exact (space_of_reach member).2

/-- The accesses of a step that fetch, and those that do not, are its two parts. -/
theorem filter_accesses (cpu : Cpu) (bus : β) :
    (cpu.accesses bus).filter (·.intent = .fetch) =
        cpu.core.reach .program cpu.core.fetchDemand ∧
      (cpu.accesses bus).filter (·.intent ≠ .fetch) = cpu.stepAccesses bus := by
  have fetches {access : Access} (member : access ∈ cpu.core.reach .program cpu.core.fetchDemand) :
      access.intent = .fetch := (fetch_of_reach member).1
  have data {access : Access} (member : access ∈ cpu.stepAccesses bus) : access.intent ≠ .fetch :=
    (data_of_stepAccesses member).1
  rw [accesses_eq, List.filter_append, List.filter_append]
  constructor
  · rw [List.filter_eq_self.mpr fun access member => decide_eq_true (fetches member),
      List.filter_eq_nil_iff.mpr fun access member => by simpa using data member,
      List.append_nil]
  · rw [List.filter_eq_nil_iff.mpr fun access member => by simpa using fetches member,
      List.filter_eq_self.mpr fun access member => decide_eq_true (data member),
      List.nil_append]

/-- The step fetches from the host and has its data in one memory: all its accesses that are not a
fetch go there, what they make of that memory is all that becomes of it, and what is loaded is its
reply. -/
structure Routes (cpu : Cpu) (bus : β) (space : DataSpace) : Prop where
  only : cpu.MakesOnly bus (cpu.accesses bus)
  spaces : ∀ access ∈ cpu.accesses bus,
    access.space = if access.intent = .fetch then .program else space
  served : ∃ fetching data : List Request,
    fetching.map Request.target =
        ((cpu.accesses bus).filter (·.intent = .fetch)).map Access.target ∧
      data.map Request.target =
        ((cpu.accesses bus).filter (·.intent ≠ .fetch)).map Access.target ∧
      (cpu.step bus).memories = ((cpu.memories bus).serve .program fetching).serve space data
  loads : ∀ {word : Word} {fetched : Cpu} {memory : β} {load : Load} {place : Word}
      {value : BitVec load.width.bits},
    (cpu.tick 1).fetch bus = (.ok word, fetched, memory) → cpu.interruptDue = false →
      fetched.core.issue fetched.random word = .load load →
      fetched.core.place load.demand = .ok place →
      (fetched.memories memory).reply space (.read load.width place) =
        .value load.width (.ok value) →
      (cpu.step bus).cpu.core =
        ((fetched.core.mark load.demand).receive load.destination value).advance

theorem step_routes (cpu : Cpu) (bus : β) : cpu.Routes bus cpu.core.space := by
  obtain ⟨fetching, data⟩ := cpu.filter_accesses bus
  constructor
  case only => exact cpu.step_makesOnly bus
  case spaces =>
    intro access member
    rw [accesses_eq] at member
    rcases List.mem_append.mp member with fetch | asked
    · obtain ⟨intent, space⟩ := fetch_of_reach fetch
      rw [if_pos intent, space]
    · obtain ⟨intent, space⟩ := data_of_stepAccesses asked
      rw [if_neg intent, space]
  case served =>
    refine ⟨cpu.fetchAsks, cpu.stepAsks bus, ?_, ?_, cpu.memories_step bus⟩
    · rw [fetching]
      exact targets_asks_program (fun _ => rfl) _
    · rw [data]
      exact cpu.targets_stepAsks bus
  case loads =>
    intro word fetched memory load place value fetch calm issued placed replied
    rw [← space_of_fetch fetch] at replied
    have answered := readData_of_reply replied
    rw [step_of_execute fetch calm]
    simp only [execute, issued, load_eq, placed, answered]
    rfl

/-! ### Stretches -/

theorem memories_operate_of_host {cpu : Cpu} {bus : β} {operation : Operation}
    (host : operation.runs = false) :
    (cpu.operate bus operation).memories = cpu.memories bus := by
  cases operation with
  | step | execute word => cases host
  | _ => rfl

/-- What any operation makes of the memories. -/
theorem memories_operate (cpu : Cpu) (bus : β) (operation : Operation) :
    ∃ (places : List Word) (data : List Request), (cpu.operate bus operation).memories =
      ((cpu.memories bus).serve .program (places.map (.read .word))).serve cpu.core.space data := by
  cases host : operation.runs with
  | false => exact ⟨[], [], by simp [memories_operate_of_host host]⟩
  | true =>
    cases operation with
    | step =>
      -- A fetch reads a word, if it finds a place.
      obtain ⟨places, fetching⟩ : ∃ places : List Word,
          cpu.fetchAsks = places.map (.read .word) := by
        simp only [fetchAsks, Core.asks]
        cases cpu.core.place cpu.core.fetchDemand with
        | error trap => exact ⟨[], rfl⟩
        | ok place => exact ⟨[place], rfl⟩
      refine ⟨places, cpu.stepAsks bus, ?_⟩
      rw [← fetching]
      exact cpu.memories_step bus
    | execute word =>
      refine ⟨[], cpu.dataAsks word, ?_⟩
      rw [List.map_nil, Memories.serve_nil]
      exact cpu.memories_execute bus word
    | _ => cases host

/-- A stretch of operations on one memory, each of which begins in a state with a property. The
host does not write the status register by another number than its own. -/
inductive Stretch (property : Cpu → Prop) (start : Cpu) (bus : β) : Cpu → β → Prop where
  | refl : Stretch property start bus start bus
  | operate {cpu : Cpu} {memory : β} {operation : Operation}
      (before : Stretch property start bus cpu memory) (holds : property cpu)
      (names : operation.namesStatus = true) :
      Stretch property start bus (cpu.operate memory operation).cpu
        (cpu.operate memory operation).bus

/-- The status register isolates the caches. -/
def Isolates (cpu : Cpu) : Prop := hasAny cpu.core.system.status 0x00010000 = true

section

variable {start cpu : Cpu} {bus memory : β} {property : Cpu → Prop}

theorem Stretch.reachable (stretch : Stretch property start bus cpu memory)
    (reached : start.ReachableBy (·.namesStatus = true)) :
    cpu.ReachableBy (·.namesStatus = true) := by
  induction stretch with
  | refl => exact reached
  | operate before holds names ih => exact ih.leads (.operate _ names .refl)

/-- While the caches are isolated, the host serves fetches only. -/
theorem Stretch.host (stretch : Stretch Isolates start bus cpu memory)
    (reached : start.ReachableBy (·.namesStatus = true)) :
    ∃ places : List Word, memory = (Bus.serveAll bus (places.map (.read .word))).2 := by
  -- By induction on the stretch. The register and the choice agree at each operation, so data goes
  -- to a cache and only the fetch is left for the host.
  induction stretch with
  | refl => exact ⟨[], rfl⟩
  | @operate cpu memory operation before isolates names ih =>
    obtain ⟨earlier, served⟩ := ih
    have selected : cpu.core.space = .ofStatus cpu.core.system.status :=
      (before.reachable reached).selected
    have elsewhere : cpu.core.space ≠ .program := by
      rw [selected]
      exact DataSpace.ofStatus_ne_program isolates
    obtain ⟨places, data, after⟩ := cpu.memories_operate memory operation
    have host := congrArg Memories.host after
    rw [Memories.host_serve_of_elsewhere elsewhere] at host
    refine ⟨earlier ++ places, ?_⟩
    rw [List.map_append, Bus.serveAll_append, ← served]
    exact host

/-- While the caches are not isolated, they stay as they are. -/
theorem Stretch.caches (stretch : Stretch (¬ Isolates ·) start bus cpu memory)
    (reached : start.ReachableBy (·.namesStatus = true)) :
    cpu.icache = start.icache ∧ cpu.dcache = start.dcache := by
  induction stretch with
  | refl => exact ⟨rfl, rfl⟩
  | @operate cpu memory operation before exposed names ih =>
    have selected : cpu.core.space = .ofStatus cpu.core.system.status :=
      (before.reachable reached).selected
    have program : cpu.core.space = .program := by
      rw [selected]
      exact if_neg exposed
    obtain ⟨places, data, after⟩ := cpu.memories_operate memory operation
    rw [program] at after
    exact ⟨(congrArg Memories.icache after).trans ih.1,
      (congrArg Memories.dcache after).trans ih.2⟩

end

end

end Cpu

/-! ### What changes the choice -/

/-- Where data goes is chosen by a reset or a write of the status register. -/
theorem Regime.After.space {before after : Regime} {taking : Bool} {deed : Deed}
    {reports : List Bool} (changed : before.After taking deed after reports) :
    after.space = before.space ∨ deed.operation = .reset ∨ deed.Writes 12 := by
  cases changed with
  | wroteStatus writes value => exact .inr (.inr writes)
  | reset asked booting => exact .inr (.inl asked)
  | _ => exact .inl rfl

namespace Cpu

section

variable {β : Type} [Bus β]

theorem entered_operate_of_host {cpu : Cpu} {bus : β} {operation : Operation}
    (host : operation.runs = false) : entered (cpu.operate bus operation).notes = [] := by
  cases operation with
  | step | execute word => cases host
  | reset =>
    have notes : (cpu.operate bus .reset).notes =
        Core.modeChange cpu.core.system.status (Status.bev ||| Status.ts) ++
          [.message (.reset cpu.core.config.model cpu.core.config.cpurev)] := rfl
    rw [notes, entered_append, Core.entered_modeChange]
    rfl
  | setSystemReg number value => exact Core.entered_writeSystem _ _ _
  | setInput line asserted => exact (Core.routine_setInput _ _ _).entered
  | _ => rfl

/-- An exception does not change where data goes. -/
theorem space_of_entered {cpu : Cpu} {bus : β} {operation : Operation}
    (trapped : entered (cpu.operate bus operation).notes ≠ []) :
    (cpu.operate bus operation).cpu.core.space = cpu.core.space := by
  rcases cpu.operate_courses bus operation with ⟨word, start, memory, ran⟩ |
    ⟨trap, core, memory, left⟩ | host
  · exact absurd ran.quiet trapped
  -- Entering a handler changes the mode bits of the status register, not the choice.
  · have same : core.regime = cpu.core.regime := Core.regime_of_forgetOrders left.same
    exact left.closes.space.trans (congrArg Regime.space same)
  · exact absurd (entered_operate_of_host host) trapped

theorem space_operate (cpu : Cpu) (bus : β) (operation : Operation) :
    (cpu.operate bus operation).cpu.core.space = cpu.core.space ∨ operation = .reset ∨
      (∃ value, operation = .setSystemReg 12 value) ∨
      ∃ word rt, cpu.executed? bus operation = some word ∧
        decode word = .system (.moveTo rt 12) := by
  rcases (cpu.operate_after bus operation).space with same | asked | writes
  · exact .inl same
  · exact .inr (.inl asked)
  · refine .inr (.inr ?_)
    -- The number is made a variable, so that the cases can speak about it.
    generalize number : (12 : Nat) = status at writes
    cases writes with
    | @host _ value asked => exact .inl ⟨value, number ▸ asked⟩
    | @program rt target executed =>
      obtain ⟨word, ran, decoded⟩ := Option.map_eq_some_iff.mp executed
      have statusReg : target = 12 := Fin.ext number.symm
      exact .inr ⟨word, rt, ran, statusReg ▸ decoded⟩

end

/-- Data goes where the status register says. In every state that a host brings about without
writing that register by another number than its own, a step has its data in the memory that two
bits of the register select, at translated addresses, and fetches from the host. While the caches
are isolated, the host serves fetches only; while they are not, the caches stay as they are. Where
data goes is not changed by an exception, nor by any instruction but a write of that register. -/
theorem data_routed {cpu : Cpu} (reached : cpu.ReachableBy (·.namesStatus = true)) {β : Type}
    [Bus β] (bus : β) :
    cpu.Routes bus
        (if hasAny cpu.core.system.status 0x00010000 then
          if hasAny cpu.core.system.status 0x00020000 then .instructionCache else .dataCache
        else .program) ∧
      (∀ stop memory, Stretch Isolates cpu bus stop memory →
        (∃ places : List Word, memory = (Bus.serveAll bus (places.map (.read .word))).2) ∧
          ((∀ (memory : β) width place, (Bus.read memory width place).2 = memory) →
            memory = bus)) ∧
      (∀ stop memory, Stretch (¬ Isolates ·) cpu bus stop memory →
        stop.icache = cpu.icache ∧ stop.dcache = cpu.dcache) ∧
      ∀ operation, let after := cpu.operate bus operation
        (entered after.notes ≠ [] → after.cpu.core.space = cpu.core.space) ∧
          (after.cpu.core.space = cpu.core.space ∨ operation = .reset ∨
            (∃ value, operation = .setSystemReg 12 value) ∨
            ∃ word rt, cpu.executed? bus operation = some word ∧
              decode word = .system (.moveTo rt 12)) := by
  have selected : cpu.core.space = .ofStatus cpu.core.system.status := reached.selected
  have routes := cpu.step_routes bus
  rw [selected] at routes
  refine ⟨routes, ?_, ?_, ?_⟩
  · intro stop memory stretch
    obtain ⟨places, served⟩ := stretch.host reached
    refine ⟨⟨places, served⟩, ?_⟩
    intro quiet
    rw [served]
    exact Bus.serveAll_reads quiet bus places
  · intro stop memory stretch
    exact stretch.caches reached
  · intro operation after
    exact ⟨space_of_entered, cpu.space_operate bus operation⟩

/-- A store goes to the data cache when the host has isolated the caches, and leaves the host alone.
When the host has written another register instead, it goes to the host and leaves the caches
alone. -/
theorem data_routed_store :
    (isolated 12).Routes storeAtHand .dataCache ∧
      ((isolated 12).step storeAtHand).bus = storeAtHand ∧
      ((isolated 12).step storeAtHand).cpu.dcache.read .word 64 = 7 ∧
      ((isolated 12).step storeAtHand).cpu.core.space = .dataCache ∧
      (isolated 13).Routes storeAtHand .program ∧
      ((isolated 13).step storeAtHand).cpu.dcache = (isolated 13).dcache ∧
      ((isolated 13).step storeAtHand).bus.read .word 64 = .ok 7 := by
  obtain ⟨routes, hosts, -, choice⟩ :=
    data_routed (reachable_isolated 12 (by decide)) storeAtHand
  obtain ⟨routes', -, caches, -⟩ := data_routed (reachable_isolated 13 (by decide)) storeAtHand
  have isolates : Isolates (isolated 12) := by
    change hasAny _ _ = true
    decide +kernel
  have exposed : ¬ Isolates (isolated 13) := by
    change ¬ hasAny _ _ = true
    decide +kernel
  have behind : Stretch Isolates (isolated 12) storeAtHand
      ((isolated 12).operate storeAtHand .step).cpu
      ((isolated 12).operate storeAtHand .step).bus :=
    .operate .refl isolates rfl
  have before : Stretch (¬ Isolates ·) (isolated 13) storeAtHand
      ((isolated 13).operate storeAtHand .step).cpu
      ((isolated 13).operate storeAtHand .step).bus :=
    .operate .refl exposed rfl
  have unchanged := (hosts _ _ behind).2
  have kept := caches _ _ before
  refine ⟨?_, unchanged fun _ _ _ => rfl, by decide +kernel, ?_, ?_, kept.2, by decide +kernel⟩
  · have status : (isolated 12).core.system.status = 0x10000 := by decide +kernel
    rw [status] at routes
    exact routes
  · rcases (choice .step).2 with same | asked | ⟨value, asked⟩ | ⟨word, rt, executed, decoded⟩
    · exact same.trans (by decide +kernel)
    · cases asked
    · cases asked
    · have store : (isolated 12).executed? storeAtHand .step = some 0xad090000 := by
        decide +kernel
      cases store.symm.trans executed
      have reads : decode 0xad090000 = .store .word 9 8 0 := by decide
      cases reads.symm.trans decoded
  · have status : (isolated 13).core.system.status = 0 := by decide +kernel
    rw [status] at routes'
    exact routes'

end Cpu

end R3000

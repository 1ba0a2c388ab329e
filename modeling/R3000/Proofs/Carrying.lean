import R3000.Proofs.Translation
import R3000.Proofs.Trapping
import R3000.Ram

/-!
# Carrying out loads and stores

An instruction is carried out when it is fetched and executed by a step, or executed as it is
given. Beside its own effect a step counts the time, moves search orders and goes on to the next
address. Nothing of that matters to the data accesses that follow, so one description of a load,
and one of a store, serves for both, and for sequences of any of them.
-/
namespace R3000

/-! ### Cores that access data alike -/

namespace Core

/-- The same registers, and the same data accesses. -/
structure Agrees (core other : Core) : Prop where
  registers : other.registers = core.registers
  byteOrder : other.config.byteOrder = core.config.byteOrder
  space : other.space = core.space
  resolve : ∀ address intent, other.resolve other.userMode address intent =
    core.resolve core.userMode address intent

section

variable {core other later : Core}

theorem Agrees.refl (core : Core) : core.Agrees core := ⟨rfl, rfl, rfl, fun _ _ => rfl⟩

theorem Agrees.trans (first : core.Agrees other) (second : other.Agrees later) :
    core.Agrees later where
  registers := second.registers.trans first.registers
  byteOrder := second.byteOrder.trans first.byteOrder
  space := second.space.trans first.space
  resolve address intent := (second.resolve address intent).trans (first.resolve address intent)

theorem agrees_advance (core : Core) : core.Agrees core.advance := ⟨rfl, rfl, rfl, fun _ _ => rfl⟩

/-- An access moves a search order at most, which no translation depends on. -/
theorem agrees_mark (core : Core) (demand : Demand) : core.Agrees (core.mark demand) := by
  have parts := eq_of_forgetOrders (forgetOrders_mark core demand)
  constructor
  case registers => rw [parts]
  case byteOrder => rw [parts]
  case space => rw [parts]
  case resolve =>
    intro address intent
    rw [userMode_mark]
    exact core.resolve_touch demand.address address demand.intent intent core.userMode

theorem Agrees.setReg (agrees : core.Agrees other) (reg : RegNum) (value : Word) :
    (core.setReg reg value).Agrees (other.setReg reg value) where
  registers := congrArg (·.write reg value) agrees.registers
  byteOrder := agrees.byteOrder
  space := agrees.space
  resolve := agrees.resolve

theorem Agrees.reg (agrees : core.Agrees other) (reg : RegNum) : other.reg reg = core.reg reg := by
  simp only [Core.reg, agrees.registers]

theorem Agrees.receive (agrees : core.Agrees other) (destination : Destination) {width : Width}
    (value : BitVec width.bits) :
    (core.receive destination value).Agrees (other.receive destination value) := by
  cases destination with
  | signed rt | unsigned rt => exact agrees.setReg _ _
  | left rt shift | right rt shift =>
    simp only [Core.receive, agrees.reg]
    exact agrees.setReg _ _
  | float ft => exact ⟨agrees.registers, agrees.byteOrder, agrees.space, agrees.resolve⟩

theorem Agrees.place (agrees : core.Agrees other) (demand : Demand) :
    other.place demand = core.place demand := by
  simp only [Core.place, agrees.resolve]

end

/-! ### Loads and stores -/

/-- A word encodes a load to a register, which finds the address in a base register. -/
def Loads (core : Core) (word : Word) (op : LoadOp) (rt base : RegNum) (address : Word) : Prop :=
  ∃ offset, decode word = .load op rt base offset ∧ core.effectiveAddress base offset = address

/-- A word encodes a store of a register. -/
def Stores (core : Core) (word : Word) (op : StoreOp) (rt base : RegNum) (address : Word) : Prop :=
  ∃ offset, decode word = .store op rt base offset ∧ core.effectiveAddress base offset = address

section

variable {core other : Core} {word address : Word} {rt base : RegNum}

theorem Loads.issue {op : LoadOp} (loads : core.Loads word op rt base address) (random : Fin 64) :
    core.issue random word = .load (core.loadOf op rt address) := by
  obtain ⟨offset, decoded, found⟩ := loads
  simp only [Core.issue, decoded, issueInstr, found]

theorem Stores.issue {op : StoreOp} (stores : core.Stores word op rt base address)
    (random : Fin 64) :
    core.issue random word = .store (core.storeOf op (core.reg rt) address) := by
  obtain ⟨offset, decoded, found⟩ := stores
  simp only [Core.issue, decoded, issueInstr, found]

/-- Where a load goes depends on its base register only. -/
theorem Loads.of_base {op : LoadOp} (loads : core.Loads word op rt base address)
    (same : other.reg base = core.reg base) : other.Loads word op rt base address := by
  obtain ⟨offset, decoded, found⟩ := loads
  refine ⟨offset, decoded, ?_⟩
  rw [← found, effectiveAddress, effectiveAddress, same]

theorem Stores.of_base {op : StoreOp} (stores : core.Stores word op rt base address)
    (same : other.reg base = core.reg base) : other.Stores word op rt base address := by
  obtain ⟨offset, decoded, found⟩ := stores
  refine ⟨offset, decoded, ?_⟩
  rw [← found, effectiveAddress, effectiveAddress, same]

theorem Agrees.loadOf (agrees : core.Agrees other) (op : LoadOp) (rt : RegNum) (address : Word) :
    other.loadOf op rt address = core.loadOf op rt address := by
  cases op <;> simp only [Core.loadOf, agrees.byteOrder]

theorem Agrees.storeOf (agrees : core.Agrees other) (op : StoreOp) (value address : Word) :
    other.storeOf op value address = core.storeOf op value address := by
  cases op <;> simp only [Core.storeOf, agrees.byteOrder]

end

end Core

/-! ### Carrying out instructions -/

namespace Cpu

section

variable {β : Type} [Bus β]

/-- The outcome of an instruction: fetched by a step that takes no interrupt, or given. -/
inductive Performs (cpu : Cpu) (bus : β) (word : Word) : Outcome β → Prop where
  | fetched {fetched : Cpu} {memory : β}
      (fetch : (cpu.tick 1).fetch bus = (.ok word, fetched, memory))
      (calm : cpu.interruptDue = false) : Performs cpu bus word (cpu.step bus)
  | given : Performs cpu bus word (cpu.execute bus word)

/-- The outcome of instructions that are carried out one after the other. -/
inductive Carries : Cpu → β → List Word → Outcome β → Prop where
  | nothing (cpu : Cpu) (bus : β) : Carries cpu bus [] ⟨cpu, bus, []⟩
  | next {cpu : Cpu} {bus : β} {word : Word} {rest : List Word} {first after : Outcome β}
      (performs : cpu.Performs bus word first) (later : Carries first.cpu first.bus rest after) :
      Carries cpu bus (word :: rest) { after with notes := first.notes ++ after.notes }

/-- Any instructions can be carried out: what they do may be to enter a handler. -/
theorem exists_carries (cpu : Cpu) (bus : β) (words : List Word) :
    ∃ outcome, cpu.Carries bus words outcome := by
  induction words generalizing cpu bus with
  | nil => exact ⟨_, .nothing cpu bus⟩
  | cons word rest ih =>
    obtain ⟨after, later⟩ := ih (cpu.execute bus word).cpu (cpu.execute bus word).bus
    exact ⟨_, .next .given later⟩

/-- The last of several instructions is carried out in the state that the others leave. -/
theorem Carries.last {cpu : Cpu} {bus : β} {words : List Word} {word : Word} {outcome : Outcome β}
    (carries : cpu.Carries bus (words ++ [word]) outcome) :
    ∃ before after, cpu.Carries bus words before ∧ before.cpu.Performs before.bus word after ∧
      outcome = ⟨after.cpu, after.bus, before.notes ++ after.notes⟩ := by
  -- Each instruction may lead anywhere, so the induction is over all states and memories.
  induction words generalizing cpu bus outcome with
  | nil =>
    cases carries with
    | next performs later =>
      cases later with
      | nothing cpu bus =>
        refine ⟨_, _, .nothing _ _, performs, ?_⟩
        simp only [List.append_nil, List.nil_append]
  | cons first rest ih =>
    cases carries with
    | next performs later =>
      obtain ⟨before, after, carried, performed, rfl⟩ := ih later
      refine ⟨_, after, .next performs carried, performed, ?_⟩
      simp only [List.append_assoc]

theorem Carries.pair {cpu : Cpu} {bus : β} {first second : Word} {outcome : Outcome β}
    (carries : cpu.Carries bus [first, second] outcome) :
    ∃ one two, cpu.Performs bus first one ∧ one.cpu.Performs one.bus second two ∧
      outcome = ⟨two.cpu, two.bus, one.notes ++ two.notes⟩ := by
  cases carries with
  | next performs later =>
    cases later with
    | next performs' later =>
      cases later with
      | nothing cpu bus =>
        refine ⟨_, _, performs, performs', ?_⟩
        simp only [List.append_nil]

end

section

variable {cpu : Cpu} {ram : Ram} {word : Word} {outcome : Outcome Ram}

theorem bus_fetch (cpu : Cpu) (ram : Ram) : (cpu.fetch ram).2.2 = ram := by
  rw [fetch_eq]
  cases cpu.core.place cpu.core.fetchDemand with
  | error trap => rfl
  | ok place =>
    simp only
    split <;> rfl

/-- Reading the instruction leaves the memory as it is, and the core agrees with what it was. -/
theorem Performs.execute (performs : cpu.Performs ram word outcome) :
    ∃ ready : Cpu, cpu.core.Agrees ready.core ∧
      (outcome = ready.execute ram word ∨ outcome = advance (ready.execute ram word)) := by
  cases performs with
  | given => exact ⟨cpu, .refl _, .inl rfl⟩
  -- The fetch moves its own search order, and counts the time, before the word is executed.
  | @fetched fetched memory fetch calm =>
    have kept := bus_fetch (cpu.tick 1) ram
    rw [fetch] at kept
    cases kept
    refine ⟨fetched, ?_, .inr (step_of_execute fetch calm)⟩
    rw [fetch_of_ok fetch]
    exact cpu.core.agrees_mark _

/-- A load that finds its place, from which the memory answers, brings the answer and does
nothing else that a later access would see. -/
theorem Performs.load {op : LoadOp} {rt base : RegNum} {address place : Word} {load : Load}
    {value : BitVec load.width.bits} (performs : cpu.Performs ram word outcome)
    (loads : cpu.core.Loads word op rt base address)
    (asked : cpu.core.loadOf op rt address = load) (program : cpu.core.space = .program)
    (placed : cpu.core.place load.demand = .ok place)
    (read : ram.read load.width place = .ok value) :
    outcome.notes = [] ∧ outcome.bus = ram ∧
      (cpu.core.receive load.destination value).Agrees outcome.cpu.core := by
  obtain ⟨ready, agrees, executed⟩ := performs.execute
  have stillLoads : ready.core.Loads word op rt base address := loads.of_base (agrees.reg base)
  have issued := stillLoads.issue ready.random
  rw [agrees.loadOf, asked] at issued
  have data : ready.readData ram load.width place = (.ok value, ram) := by
    simp only [readData, agrees.space, program, Bus.read, read]
  have loaded : ready.execute ram word =
      ⟨{ ready with core := (ready.core.mark load.demand).receive load.destination value },
        ram, []⟩ := by
    simp only [Cpu.execute, issued, load_eq, agrees.place, placed, data]
  have received : (cpu.core.receive load.destination value).Agrees
      ((ready.core.mark load.demand).receive load.destination value) :=
    (agrees.trans (ready.core.agrees_mark _)).receive _ _
  rcases executed with rfl | rfl
  · rw [loaded]
    exact ⟨rfl, rfl, received⟩
  · rw [loaded]
    exact ⟨rfl, rfl, received.trans (Core.agrees_advance _)⟩

/-- A store that finds its place inside the memory changes the memory only. -/
theorem Performs.store {op : StoreOp} {rt base : RegNum} {address place : Word} {start : Nat}
    {store : Store} (performs : cpu.Performs ram word outcome)
    (stores : cpu.core.Stores word op rt base address)
    (asked : cpu.core.storeOf op (cpu.core.reg rt) address = store)
    (program : cpu.core.space = .program) (placed : cpu.core.place store.demand = .ok place)
    (found : ram.offset store.width place = .ok start) :
    outcome.notes = [] ∧
      outcome.bus = ram.storeAt store.width start
        (mergeMasked (ram.valueAt store.width start) store.value store.mask) ∧
      cpu.core.Agrees outcome.cpu.core := by
  obtain ⟨ready, agrees, executed⟩ := performs.execute
  have stillStores : ready.core.Stores word op rt base address := stores.of_base (agrees.reg base)
  have issued := stillStores.issue ready.random
  rw [agrees.storeOf, agrees.reg, asked] at issued
  have data : ready.writeData ram store.width place store.value store.mask =
      (.ok (), ready, ram.storeAt store.width start
        (mergeMasked (ram.valueAt store.width start) store.value store.mask)) := by
    simp only [writeData, agrees.space, program, Bus.write, Ram.write, found]
  have stored : ready.execute ram word =
      ⟨{ ready with core := ready.core.mark store.demand }, ram.storeAt store.width start
        (mergeMasked (ram.valueAt store.width start) store.value store.mask), []⟩ := by
    simp only [Cpu.execute, issued, store_eq, agrees.place, placed, data]
  have marked := agrees.trans (ready.core.agrees_mark store.demand)
  rcases executed with rfl | rfl
  · rw [stored]
    exact ⟨rfl, rfl, marked⟩
  · rw [stored]
    exact ⟨rfl, rfl, marked.trans (Core.agrees_advance _)⟩

end

end Cpu

end R3000

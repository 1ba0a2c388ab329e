import R3000.Proofs.Completion
import R3000.Proofs.Demands

/-!
# Where traps come from

A step has one trap at most: that of the fetch, else an interrupt, else that of the
instruction. The trap of an instruction is raised when it is issued, or by the one memory
access it asked for, which may be misaligned, not translated, or refused by the memory.

Taking a trap is then the same everywhere. The handler is entered from the state in which
the instruction began, where at most a search order has moved, because an access was
translated before the memory refused it.
-/
namespace R3000

namespace Cpu

variable {β : Type} [Bus β]

/-! ### The trap of each stage -/

def loadTrap (cpu : Cpu) (bus : β) (load : Load) : Option Trap :=
  match cpu.core.place load.demand with
  | .error trap => some trap
  | .ok place =>
    match (cpu.readData bus load.width place).1 with
    | .error reason => some (.loadFailed load.address reason)
    | .ok _ => none

def storeTrap (cpu : Cpu) (bus : β) (store : Store) : Option Trap :=
  match cpu.core.place store.demand with
  | .error trap => some trap
  | .ok place =>
    match (cpu.writeData bus store.width place store.value store.mask).1 with
    | .error reason => some (.storeFailed store.address reason)
    | .ok _ => none

def executeTrap (cpu : Cpu) (bus : β) (word : Word) : Option Trap :=
  match cpu.core.issue cpu.random word with
  | .retire _ _ _ => none
  | .raise trap => some trap
  | .load load => cpu.loadTrap bus load
  | .store store => cpu.storeTrap bus store

/-- Interrupts are enabled, and one that the mask lets through is pending. -/
def interruptDue (cpu : Cpu) : Bool :=
  Status.interruptsEnabled cpu.core.system.status &&
    hasAny (cpu.core.system.cause &&& cpu.core.system.status) Status.im

/-- The trap of a step: that of the fetch if the fetch fails, else an interrupt if one is
due, else whatever the instruction raises. -/
def stepTrap (cpu : Cpu) (bus : β) : Option Trap :=
  match (cpu.tick 1).fetch bus with
  | (.error trap, _, _) => some trap
  | (.ok word, fetched, memory) =>
    if cpu.interruptDue then some .interrupt else fetched.executeTrap memory word

end Cpu

/-! ### The mark of a refused access -/

/-- The access that was translated before the memory refused it. -/
def Trap.refused : Trap → Option (Word × Intent)
  | fetchFailed address _ => some (address, .fetch)
  | loadFailed address _ => some (address, .read)
  | storeFailed address _ => some (address, .write)
  | _ => none

/-- The trap is one that an instruction raises by itself, whatever the memory answers. -/
def Trap.isOwn : Trap → Bool
  | syscall | breakpoint | overflow | reserved _ | unusable _ => true
  | interrupt | addressError _ _ | tlbFault _ _ _ _ | fetchFailed _ _ | loadFailed _ _
  | storeFailed _ _ => false

/-- Such a trap comes before any access. -/
theorem Trap.refused_of_isOwn {trap : Trap} (own : trap.isOwn = true) : trap.refused = none := by
  cases trap with
  | fetchFailed address reason | loadFailed address reason | storeFailed address reason => cases own
  | _ => rfl

namespace Core

/-- The core in which the handler of a trap is entered. -/
def marked (core : Core) (trap : Trap) : Core :=
  match trap.refused with
  | some (address, intent) => core.touch address intent
  | none => core

@[simp] theorem forgetOrders_marked (core : Core) (trap : Trap) :
    (core.marked trap).forgetOrders = core.forgetOrders := by
  simp only [marked]
  split
  · exact forgetOrders_touch _ _ _
  · rfl

theorem marked_of_not_refused {core : Core} {trap : Trap} (kept : trap.refused = none) :
    core.marked trap = core := by
  simp only [marked]
  rw [kept]

section

variable {core : Core} {random : Fin 64} {word : Word} {trap : Trap}

theorem isOwn_of_issueSystem {op : SystemOp}
    (raised : core.issueSystem random word op = .raise trap) : trap.isOwn = true := by
  simp only [issueSystem] at raised
  split at raised
  · cases raised
    rfl
  · cases op with
    | moveFrom rt source => cases raised
    | moveTo rt target => cases raised
    | branch branch => cases raised
    | restoreMode => cases raised
    | reserved => cases raised; rfl
    | tlb op =>
      simp only at raised
      split at raised
      · cases op <;> cases raised
      · cases raised
        rfl

theorem isOwn_of_issueFloat {float : FloatInstr}
    (raised : core.issueFloat word float = .raise trap) : trap.isOwn = true := by
  -- All that can be raised is that the unit is not usable; its own faults are interrupts.
  simp only [issueFloat] at raised
  split at raised
  · cases raised
    rfl
  · split at raised
    · cases float with
      | controlFrom rt fs | controlTo rt fs =>
        simp only [issueFloatOn] at raised
        split at raised <;> cases raised
      | _ => cases raised
    · cases raised

theorem isOwn_of_issueForeign {unit : Fin 4} {branch : Option UnitBranch}
    (raised : core.issueForeign word unit branch = .raise trap) : trap.isOwn = true := by
  simp only [issueForeign] at raised
  split at raised
  · cases raised
    rfl
  · split at raised <;> cases raised
    rfl

/-- An instruction raises its own traps only when it is issued. -/
theorem isOwn_of_issueInstr {instr : Instr}
    (raised : core.issueInstr random word instr = .raise trap) : trap.isOwn = true := by
  cases instr with
  | checked op rd rs rt =>
    simp only [issueInstr] at raised
    split at raised <;> cases raised
    rfl
  | checkedImmediate rt rs operand =>
    simp only [issueInstr] at raised
    split at raised <;> cases raised
    rfl
  | divide signed rs rt =>
    simp only [issueInstr, issueDivide] at raised
    split at raised <;> cases raised
  | syscall => cases raised; rfl
  | breakpoint => cases raised; rfl
  | reserved => cases raised; rfl
  | system op => exact isOwn_of_issueSystem raised
  | float float => exact isOwn_of_issueFloat raised
  | foreign unit branch => exact isOwn_of_issueForeign raised
  | _ =>
    -- The others raise nothing when they are issued.
    cases raised

end

/-- A demand finds no place because its address is misaligned, or belongs to the kernel and the
program is in user mode, or because the lookaside buffer does not translate it. -/
theorem place_error {core : Core} {demand : Demand} {trap : Trap}
    (failed : core.place demand = .error trap) :
    (trap = .addressError demand.address demand.intent ∧
        (demand.misaligned = true ∨ route core.userMode demand.address = .refused)) ∨
      ∃ key kind, trap = .tlbFault demand.address key demand.intent kind := by
  simp only [place] at failed
  split at failed
  next misaligned =>
    cases failed
    exact .inl ⟨rfl, .inl misaligned⟩
  · simp only [resolve] at failed
    cases routed : route core.userMode demand.address with
    | unmapped physical => simp [routed] at failed
    | refused =>
      simp only [routed, Except.error.injEq] at failed
      exact .inl ⟨failed.symm, .inr rfl⟩
    | mapped =>
      cases answer : core.mmu.translate core.system.entryHi demand.address demand.intent with
      | ok physical => simp [routed, answer] at failed
      | error kind =>
        simp only [routed, answer, Except.error.injEq] at failed
        exact .inr ⟨_, kind, failed.symm⟩

/-- An access that finds no place is not refused by the memory. -/
theorem refused_of_place {core : Core} {demand : Demand} {trap : Trap}
    (failed : core.place demand = .error trap) : trap.refused = none := by
  rcases place_error failed with ⟨rfl, -⟩ | ⟨key, kind, rfl⟩
  · rfl
  · rfl

/-! ### Entering -/

@[simp] theorem entered_trapNotes (pc : Word) (trap : Trap) : entered (trap.notes pc) = [] := by
  cases trap <;> rfl

/-- Entering a handler reports its exception and no other. -/
@[simp] theorem entered_enter (core : Core) (trap : Trap) :
    entered (core.enter trap).2 = [trap.exception] := by
  simp only [enter]
  simp only [entered_append, entered_trapNotes]
  split <;> rfl

/-- Entering a handler looks at nothing that depends on the search orders. -/
theorem enter_of_forgetOrders {core other : Core} (same : core.forgetOrders = other.forgetOrders)
    (trap : Trap) : (core.enter trap).1 = { (other.enter trap).1 with mmu := core.mmu } := by
  rw [eq_of_forgetOrders same]
  rfl

end Core

namespace Cpu

variable {β : Type}

@[simp] theorem entered_trap (cpu : Cpu) (bus : β) (trap : Trap) :
    entered (cpu.trap bus trap).notes = [trap.exception] := Core.entered_enter cpu.core trap

variable [Bus β]

/-! ### Loads and stores -/

/-- An instruction raises a trap of its own, or asks for an access that is refused by the memory or
finds no place. -/
theorem executeTrap_cases {cpu : Cpu} {bus : β} {word : Word} {trap : Trap}
    (raised : cpu.executeTrap bus word = some trap) :
    trap.isOwn = true ∨ trap.exception = .busData ∨
      ∃ demand, cpu.core.place demand = .error trap := by
  simp only [executeTrap] at raised
  split at raised
  · cases raised
  next issued =>
    cases raised
    exact .inl (Core.isOwn_of_issueInstr issued)
  · simp only [loadTrap] at raised
    split at raised
    next unplaced =>
      cases raised
      exact .inr (.inr ⟨_, unplaced⟩)
    · split at raised <;> cases raised
      exact .inr (.inl rfl)
  · simp only [storeTrap] at raised
    split at raised
    next unplaced =>
      cases raised
      exact .inr (.inr ⟨_, unplaced⟩)
    · split at raised <;> cases raised
      exact .inr (.inl rfl)

/-- A trap that an instruction raises by itself is raised when it is issued. -/
theorem issued_of_isOwn {cpu : Cpu} {bus : β} {word : Word} {trap : Trap}
    (raised : cpu.executeTrap bus word = some trap) (own : trap.isOwn = true) :
    cpu.core.issue cpu.random word = .raise trap := by
  have placed {demand : Demand} (failed : cpu.core.place demand = .error trap) : False := by
    rcases Core.place_error failed with ⟨rfl, -⟩ | ⟨key, kind, rfl⟩
    · cases own
    · cases own
  simp only [executeTrap] at raised
  split at raised
  · cases raised
  next issued =>
    cases raised
    exact issued
  · simp only [loadTrap] at raised
    split at raised
    next unplaced =>
      cases raised
      exact (placed unplaced).elim
    · split at raised <;> cases raised
      cases own
  · simp only [storeTrap] at raised
    split at raised
    next unplaced =>
      cases raised
      exact (placed unplaced).elim
    · split at raised <;> cases raised
      cases own

/-- A load that raises a trap enters its handler and does nothing else but, when the memory
refused it, move a search order. -/
theorem load_of_trap {cpu : Cpu} {bus : β} {load : Load} {trap : Trap}
    (raised : cpu.loadTrap bus load = some trap) :
    ∃ memory, cpu.load bus load = { cpu with core := cpu.core.marked trap }.trap memory trap := by
  simp only [loadTrap] at raised
  rw [load_eq]
  cases placed : cpu.core.place load.demand with
  | error reason =>
    simp only [placed, Option.some.injEq] at raised
    subst raised
    rw [Core.marked_of_not_refused (Core.refused_of_place placed)]
    exact ⟨bus, rfl⟩
  | ok place =>
    simp only [placed] at raised
    split at raised <;> cases raised
    next refused =>
      -- The access was translated before it was refused: this is the mark it leaves.
      simp only [refused]
      exact ⟨_, rfl⟩

/-- A load that raises nothing brings a value for its destination. -/
theorem load_of_none {cpu : Cpu} {bus : β} {load : Load} (silent : cpu.loadTrap bus load = none) :
    ∃ (value : BitVec load.width.bits) (memory : β), cpu.load bus load =
      ⟨{ cpu with core := (cpu.core.mark load.demand).receive load.destination value },
        memory, []⟩ := by
  simp only [loadTrap] at silent
  rw [load_eq]
  cases placed : cpu.core.place load.demand with
  | error reason => simp [placed] at silent
  | ok place =>
    simp only [placed] at silent
    split at silent
    · cases silent
    next value answered =>
      simp only [answered]
      exact ⟨value, _, rfl⟩

theorem store_of_trap {cpu : Cpu} {bus : β} {store : Store} {trap : Trap}
    (raised : cpu.storeTrap bus store = some trap) :
    ∃ memory, cpu.store bus store = { cpu with core := cpu.core.marked trap }.trap memory trap := by
  simp only [storeTrap] at raised
  rw [store_eq]
  cases placed : cpu.core.place store.demand with
  | error reason =>
    simp only [placed, Option.some.injEq] at raised
    subst raised
    rw [Core.marked_of_not_refused (Core.refused_of_place placed)]
    exact ⟨bus, rfl⟩
  | ok place =>
    simp only [placed] at raised
    split at raised <;> cases raised
    next refused =>
      simp only [refused]
      exact ⟨_, rfl⟩

/-- A store that raises nothing changes the core in a search order only, and a memory. -/
theorem store_of_none {cpu : Cpu} {bus : β} {store : Store}
    (silent : cpu.storeTrap bus store = none) :
    ∃ icache dcache memory, cpu.store bus store =
      ⟨{ cpu with core := cpu.core.mark store.demand, icache, dcache }, memory, []⟩ := by
  simp only [storeTrap] at silent
  rw [store_eq]
  cases placed : cpu.core.place store.demand with
  | error reason => simp [placed] at silent
  | ok place =>
    simp only [placed] at silent
    split at silent
    · cases silent
    next done answered =>
      obtain ⟨icache, dcache, written⟩ :=
        writeData_eq cpu bus store.width place store.value store.mask
      simp only [answered, written]
      exact ⟨icache, dcache, _, rfl⟩

/-! ### Execution -/

/-- An instruction that raises a trap enters its handler from the state it began in, but for
the mark of a refused access. -/
theorem execute_of_trap {cpu : Cpu} {bus : β} {word : Word} {trap : Trap}
    (raised : cpu.executeTrap bus word = some trap) :
    ∃ memory, cpu.execute bus word =
      { cpu with core := cpu.core.marked trap }.trap memory trap := by
  simp only [executeTrap] at raised
  simp only [execute]
  cases issued : cpu.core.issue cpu.random word with
  | retire core notes extra => simp [issued] at raised
  | raise reason =>
    -- Raised when issued, before any access was translated.
    simp only [issued, Option.some.injEq] at raised
    subst raised
    rw [Core.marked_of_not_refused (Trap.refused_of_isOwn (Core.isOwn_of_issueInstr issued))]
    exact ⟨bus, rfl⟩
  | load load =>
    simp only [issued] at raised
    exact load_of_trap raised
  | store store =>
    simp only [issued] at raised
    exact store_of_trap raised

/-- An instruction that raises nothing has completed, or has received what it loaded, or has
stored. -/
theorem execute_of_none {cpu : Cpu} {bus : β} {word : Word}
    (silent : cpu.executeTrap bus word = none) :
    (∃ next notes extra, cpu.core.issue cpu.random word = .retire next notes extra ∧
        cpu.execute bus word = ⟨{ cpu with core := next }.tick extra, bus, notes⟩) ∨
      (∃ (load : Load) (value : BitVec load.width.bits) (memory : β),
        cpu.core.issue cpu.random word = .load load ∧
          cpu.execute bus word =
            ⟨{ cpu with core := (cpu.core.mark load.demand).receive load.destination value },
              memory, []⟩) ∨
      ∃ (store : Store) (icache dcache : CacheRam) (memory : β),
        cpu.core.issue cpu.random word = .store store ∧
          cpu.execute bus word =
            ⟨{ cpu with core := cpu.core.mark store.demand, icache, dcache }, memory, []⟩ := by
  simp only [executeTrap] at silent
  simp only [execute]
  cases issued : cpu.core.issue cpu.random word with
  | retire core notes extra => exact .inl ⟨core, notes, extra, rfl, rfl⟩
  | raise trap => simp [issued] at silent
  | load load =>
    simp only [issued] at silent
    obtain ⟨value, memory, loaded⟩ := load_of_none silent
    exact .inr (.inl ⟨load, value, memory, rfl, loaded⟩)
  | store store =>
    simp only [issued] at silent
    obtain ⟨icache, dcache, memory, stored⟩ := store_of_none silent
    exact .inr (.inr ⟨store, icache, dcache, memory, rfl, stored⟩)

theorem entered_execute_of_none {cpu : Cpu} {bus : β} {word : Word}
    (silent : cpu.executeTrap bus word = none) : entered (cpu.execute bus word).notes = [] := by
  rcases execute_of_none silent with ⟨next, notes, extra, issued, executed⟩ |
    ⟨load, value, memory, -, executed⟩ | ⟨store, icache, dcache, memory, -, executed⟩
  · rw [executed]
    exact (Core.issueInstr_completes issued).entered
  · rw [executed]
    rfl
  · rw [executed]
    rfl

/-- The core after an instruction that raises nothing. -/
theorem core_execute_of_none {cpu : Cpu} {bus : β} {word : Word}
    (silent : cpu.executeTrap bus word = none) :
    (∃ next notes extra, cpu.core.issue cpu.random word = .retire next notes extra ∧
        (cpu.execute bus word).cpu.core = next) ∨
      (∃ (load : Load) (value : BitVec load.width.bits),
        cpu.core.issue cpu.random word = .load load ∧
          (cpu.execute bus word).cpu.core =
            (cpu.core.mark load.demand).receive load.destination value) ∨
      ∃ store, cpu.core.issue cpu.random word = .store store ∧
        (cpu.execute bus word).cpu.core = cpu.core.mark store.demand := by
  rcases execute_of_none silent with ⟨next, notes, extra, issued, executed⟩ |
    ⟨load, value, memory, issued, executed⟩ | ⟨store, icache, dcache, memory, issued, executed⟩
  · exact .inl ⟨next, notes, extra, issued, by rw [executed]; rfl⟩
  · exact .inr (.inl ⟨load, value, issued, by rw [executed]⟩)
  · exact .inr (.inr ⟨store, issued, by rw [executed]⟩)

/-- The exceptions that an instruction reports are those it raises: one or none. -/
theorem entered_execute (cpu : Cpu) (bus : β) (word : Word) :
    entered (cpu.execute bus word).notes =
      (cpu.executeTrap bus word).toList.map Trap.exception := by
  cases raised : cpu.executeTrap bus word with
  | none => exact entered_execute_of_none raised
  | some trap =>
    obtain ⟨memory, trapped⟩ := execute_of_trap raised
    rw [trapped]
    exact entered_trap _ _ _

/-! ### Steps -/

theorem fetch_of_error {cpu fetched : Cpu} {bus memory : β} {trap : Trap}
    (failed : cpu.fetch bus = (.error trap, fetched, memory)) :
    fetched = { cpu with core := cpu.core.marked trap } := by
  rw [fetch_eq] at failed
  cases placed : cpu.core.place cpu.core.fetchDemand with
  | error reason =>
    simp only [placed] at failed
    cases failed
    rw [Core.marked_of_not_refused (Core.refused_of_place placed)]
  | ok place =>
    simp only [placed] at failed
    split at failed <;> cases failed
    rfl

theorem fetch_of_ok {cpu fetched : Cpu} {bus memory : β} {word : Word}
    (succeeded : cpu.fetch bus = (.ok word, fetched, memory)) :
    fetched = cpu.mark cpu.core.fetchDemand := by
  rw [fetch_eq] at succeeded
  cases placed : cpu.core.place cpu.core.fetchDemand with
  | error reason => simp [placed] at succeeded
  | ok place =>
    simp only [placed] at succeeded
    split at succeeded <;> cases succeeded
    rfl

/-- The fetch does not change whether an interrupt is due. -/
theorem interruptPending_of_fetch {cpu fetched : Cpu} {bus memory : β} {word : Word}
    (succeeded : (cpu.tick 1).fetch bus = (.ok word, fetched, memory)) :
    fetched.core.system.interruptPending = cpu.interruptDue := by
  have sameSystem : fetched.core.system = cpu.core.system := by
    rw [fetch_of_ok succeeded]
    exact Core.system_mark _ _
  rw [sameSystem]
  rfl

section

variable {cpu fetched : Cpu} {bus memory : β} {word : Word}

theorem perform_of_fetch_error {trap : Trap}
    (failed : (cpu.tick 1).fetch bus = (.error trap, fetched, memory)) :
    (cpu.tick 1).perform bus = fetched.trap memory trap := by
  simp only [perform, failed]

theorem perform_of_interrupt (succeeded : (cpu.tick 1).fetch bus = (.ok word, fetched, memory))
    (due : cpu.interruptDue = true) :
    (cpu.tick 1).perform bus = fetched.trap memory .interrupt := by
  have pending := interruptPending_of_fetch succeeded
  simp only [perform, succeeded, pending, due, if_true]

theorem perform_of_execute (succeeded : (cpu.tick 1).fetch bus = (.ok word, fetched, memory))
    (calm : cpu.interruptDue = false) :
    (cpu.tick 1).perform bus = fetched.execute memory word := by
  have pending := interruptPending_of_fetch succeeded
  simp only [perform, succeeded, pending, calm, Bool.false_eq_true, if_false]

theorem step_of_fetch_error {trap : Trap}
    (failed : (cpu.tick 1).fetch bus = (.error trap, fetched, memory)) :
    cpu.step bus = advance (fetched.trap memory trap) :=
  congrArg advance (perform_of_fetch_error failed)

theorem step_of_interrupt (succeeded : (cpu.tick 1).fetch bus = (.ok word, fetched, memory))
    (due : cpu.interruptDue = true) :
    cpu.step bus = advance (fetched.trap memory .interrupt) :=
  congrArg advance (perform_of_interrupt succeeded due)

theorem step_of_execute (succeeded : (cpu.tick 1).fetch bus = (.ok word, fetched, memory))
    (calm : cpu.interruptDue = false) :
    cpu.step bus = advance (fetched.execute memory word) :=
  congrArg advance (perform_of_execute succeeded calm)

end

/-- What a step performs takes one of three courses: the fetch fails, an interrupt is taken in place
of the fetched instruction, or the instruction is executed. -/
theorem perform_cases (cpu : Cpu) (bus : β) :
    (∃ trap fetched memory, (cpu.tick 1).fetch bus = (.error trap, fetched, memory) ∧
        cpu.stepTrap bus = some trap ∧ (cpu.tick 1).perform bus = fetched.trap memory trap) ∨
      (∃ word fetched memory, (cpu.tick 1).fetch bus = (.ok word, fetched, memory) ∧
        cpu.interruptDue = true ∧ cpu.stepTrap bus = some .interrupt ∧
        (cpu.tick 1).perform bus = fetched.trap memory .interrupt) ∨
      ∃ word fetched memory, (cpu.tick 1).fetch bus = (.ok word, fetched, memory) ∧
        cpu.interruptDue = false ∧ cpu.stepTrap bus = fetched.executeTrap memory word ∧
        (cpu.tick 1).perform bus = fetched.execute memory word := by
  simp only [stepTrap]
  cases fetch : (cpu.tick 1).fetch bus with
  | mk answer rest =>
    obtain ⟨fetched, memory⟩ := rest
    cases answer with
    | error trap => exact .inl ⟨trap, fetched, memory, rfl, rfl, perform_of_fetch_error fetch⟩
    | ok word =>
      right
      cases due : cpu.interruptDue with
      | true => exact .inl ⟨word, fetched, memory, rfl, rfl, rfl, perform_of_interrupt fetch due⟩
      | false => exact .inr ⟨word, fetched, memory, rfl, rfl, rfl, perform_of_execute fetch due⟩

/-- The three courses of a step. -/
theorem step_cases (cpu : Cpu) (bus : β) :
    (∃ trap fetched memory, (cpu.tick 1).fetch bus = (.error trap, fetched, memory) ∧
        cpu.stepTrap bus = some trap ∧ cpu.step bus = advance (fetched.trap memory trap)) ∨
      (∃ word fetched memory, (cpu.tick 1).fetch bus = (.ok word, fetched, memory) ∧
        cpu.interruptDue = true ∧ cpu.stepTrap bus = some .interrupt ∧
        cpu.step bus = advance (fetched.trap memory .interrupt)) ∨
      ∃ word fetched memory, (cpu.tick 1).fetch bus = (.ok word, fetched, memory) ∧
        cpu.interruptDue = false ∧ cpu.stepTrap bus = fetched.executeTrap memory word ∧
        cpu.step bus = advance (fetched.execute memory word) := by
  rcases cpu.perform_cases bus with ⟨trap, fetched, memory, fetch, same, performed⟩ |
    ⟨word, fetched, memory, fetch, due, same, performed⟩ |
    ⟨word, fetched, memory, fetch, calm, same, performed⟩
  · exact .inl ⟨trap, fetched, memory, fetch, same, congrArg advance performed⟩
  · exact .inr (.inl ⟨word, fetched, memory, fetch, due, same, congrArg advance performed⟩)
  · exact .inr (.inr ⟨word, fetched, memory, fetch, calm, same, congrArg advance performed⟩)

/-- When a trap is raised a step enters its handler from the state in which it began, up to the
search orders. -/
theorem perform_of_trap {cpu : Cpu} {bus : β} {trap : Trap}
    (raised : cpu.stepTrap bus = some trap) :
    ∃ core memory, core.forgetOrders = cpu.core.forgetOrders ∧
      (cpu.tick 1).perform bus = { cpu.tick 1 with core }.trap memory trap := by
  have touched := Core.forgetOrders_mark cpu.core cpu.core.fetchDemand
  rcases cpu.perform_cases bus with ⟨reason, fetched, memory, fetch, same, performed⟩ |
    ⟨word, fetched, memory, fetch, due, same, performed⟩ |
    ⟨word, fetched, memory, fetch, calm, same, performed⟩
  · cases same.symm.trans raised
    rw [performed, fetch_of_error fetch]
    exact ⟨_, memory, Core.forgetOrders_marked _ _, rfl⟩
  · -- The fetched word is dropped, but the fetch has moved its search order.
    cases same.symm.trans raised
    rw [performed, fetch_of_ok fetch]
    exact ⟨_, memory, touched, rfl⟩
  · obtain ⟨after, trapped⟩ := execute_of_trap (same.symm.trans raised)
    rw [performed, trapped, fetch_of_ok fetch]
    exact ⟨_, after, (Core.forgetOrders_marked _ _).trans touched, rfl⟩

theorem step_of_trap {cpu : Cpu} {bus : β} {trap : Trap} (raised : cpu.stepTrap bus = some trap) :
    ∃ core memory, core.forgetOrders = cpu.core.forgetOrders ∧
      cpu.step bus = advance ({ cpu.tick 1 with core }.trap memory trap) := by
  obtain ⟨core, memory, same, performed⟩ := perform_of_trap raised
  exact ⟨core, memory, same, congrArg advance performed⟩

/-- The word that a step executes without raising a trap, and the state it finds. -/
theorem perform_of_none {cpu : Cpu} {bus : β} (silent : cpu.stepTrap bus = none) :
    ∃ word memory, let fetched := (cpu.tick 1).mark cpu.core.fetchDemand
      fetched.executeTrap memory word = none ∧
        (cpu.tick 1).perform bus = fetched.execute memory word := by
  rcases cpu.perform_cases bus with ⟨reason, fetched, memory, fetch, same, performed⟩ |
    ⟨word, fetched, memory, fetch, due, same, performed⟩ |
    ⟨word, fetched, memory, fetch, calm, same, performed⟩
  · cases same.symm.trans silent
  · cases same.symm.trans silent
  · have quiet := same.symm.trans silent
    rw [fetch_of_ok fetch] at quiet performed
    exact ⟨word, memory, quiet, performed⟩

theorem step_of_none {cpu : Cpu} {bus : β} (silent : cpu.stepTrap bus = none) :
    ∃ word memory, let fetched := (cpu.tick 1).mark cpu.core.fetchDemand
      fetched.executeTrap memory word = none ∧
        cpu.step bus = advance (fetched.execute memory word) := by
  obtain ⟨word, memory, quiet, performed⟩ := perform_of_none silent
  exact ⟨word, memory, quiet, congrArg advance performed⟩

/-- The exceptions that a step reports are those of its trap: one or none. -/
theorem entered_step (cpu : Cpu) (bus : β) :
    entered (cpu.step bus).notes = (cpu.stepTrap bus).toList.map Trap.exception := by
  cases raised : cpu.stepTrap bus with
  | some trap =>
    obtain ⟨core, memory, same, stepped⟩ := step_of_trap raised
    rw [stepped]
    exact entered_trap _ memory _
  | none =>
    obtain ⟨word, memory, silent, stepped⟩ := step_of_none raised
    rw [stepped]
    exact entered_execute_of_none silent

/-- A step that enters an exception has a trap. -/
theorem stepTrap_of_entered {cpu : Cpu} {bus : β} (trapped : entered (cpu.step bus).notes ≠ []) :
    ∃ trap, cpu.stepTrap bus = some trap := by
  cases raised : cpu.stepTrap bus with
  | some trap => exact ⟨trap, rfl⟩
  | none =>
    rw [entered_step, raised] at trapped
    exact absurd rfl trapped

/-- The trap of a step is an interrupt that is due, or one that its instruction raises by itself,
or it comes from an access that is refused by the memory or finds no place. -/
theorem stepTrap_cases {cpu : Cpu} {bus : β} {trap : Trap}
    (raised : cpu.stepTrap bus = some trap) :
    (trap = .interrupt ∧ cpu.interruptDue = true ∧
        ∃ word fetched memory, (cpu.tick 1).fetch bus = (.ok word, fetched, memory)) ∨
      trap.isOwn = true ∨ trap.exception = .busFetch ∨ trap.exception = .busData ∨
        ∃ (core : Core) (demand : Demand), core.forgetOrders = cpu.core.forgetOrders ∧
          core.place demand = .error trap := by
  rcases cpu.step_cases bus with ⟨reason, fetched, memory, fetch, same, -⟩ |
    ⟨word, fetched, memory, fetch, due, same, -⟩ | ⟨word, fetched, memory, fetch, calm, same, -⟩
  · cases same.symm.trans raised
    rw [fetch_eq] at fetch
    cases placed : cpu.core.place cpu.core.fetchDemand with
    | error reason =>
      simp only [tick, placed] at fetch
      cases fetch
      exact .inr (.inr (.inr (.inr ⟨cpu.core, _, rfl, placed⟩)))
    | ok place =>
      simp only [tick, placed] at fetch
      split at fetch <;> cases fetch
      exact .inr (.inr (.inl rfl))
  · cases same.symm.trans raised
    exact .inl ⟨rfl, due, word, fetched, memory, fetch⟩
  · rcases executeTrap_cases (same.symm.trans raised) with own | refused | ⟨demand, unplaced⟩
    · exact .inr (.inl own)
    · exact .inr (.inr (.inr (.inl refused)))
    · -- The access is looked up after the fetch has moved its search order.
      rw [fetch_of_ok fetch] at unplaced
      exact .inr (.inr (.inr (.inr ⟨_, demand, Core.forgetOrders_mark _ _, unplaced⟩)))

end Cpu

end R3000

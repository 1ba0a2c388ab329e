import R3000.Proofs.DelaySlots
import R3000.Proofs.Regime

/-!
# The courses of an operation

An operation of a host takes one of three courses. It runs an instruction to its end, or it leaves
for the handler of a trap, or it changes the processor directly. In the first two the processor is
in the state of the beginning when the instruction or the trap takes effect, up to time and the
search orders, and afterwards at most goes on to the next instruction.
-/
namespace R3000

namespace Core

/-- Instructions of system control make no access. -/
theorem asks_issueSystem (core : Core) (random : Fin 64) (word : Word) (op : SystemOp) :
    (core.issueSystem random word op).asks = false := by
  simp only [issueSystem]
  split
  · rfl
  · cases op with
    | tlb op =>
      simp only
      split
      · cases op <;> rfl
      · rfl
    | _ => rfl

/-- What does not find its place because it is not translated is a fault on its key. -/
theorem key_of_place {core : Core} {demand : Demand} {address key : Word} {intent : Intent}
    {kind : TlbFaultKind}
    (failed : core.place demand = .error (.tlbFault address key intent kind)) :
    key = searchKey address core.system.entryHi := by
  simp only [place] at failed
  split at failed
  · cases failed
  · simp only [resolve] at failed
    -- Only a mapped address is looked up, and only a lookup fails in this way.
    cases routed : route core.userMode demand.address with
    | unmapped physical => simp [routed] at failed
    | refused => simp [routed] at failed
    | mapped =>
      cases answer : core.mmu.translate core.system.entryHi demand.address demand.intent with
      | ok physical => simp [routed, answer] at failed
      | error reason =>
        simp only [routed, answer] at failed
        cases failed
        rfl

end Core

/-- The operation is to run the processor, not to change it directly. -/
def Operation.runs : Operation → Bool
  | step | execute _ => true
  | _ => false

namespace Cpu

/-- The processor when an operation comes to its instruction, but for the core. A step has counted
its first cycle by then. -/
def during (cpu : Cpu) : Operation → Cpu
  | .step => cpu.tick 1
  | _ => cpu

/-- The random slot of the cycle in which an operation executes an instruction. -/
def randomDuring (cpu : Cpu) (operation : Operation) : Fin 64 := (cpu.during operation).random

variable {β : Type}

/-- After an instruction an operation is over, or goes on to the next instruction. -/
inductive Closes (done : Outcome β) : Outcome β → Prop where
  | here : Closes done done
  | onward : Closes done (advance done)

namespace Closes

variable {done outcome : Outcome β}

theorem system (closes : Closes done outcome) :
    outcome.cpu.core.system = done.cpu.core.system := by
  cases closes <;> rfl

theorem mmu (closes : Closes done outcome) : outcome.cpu.core.mmu = done.cpu.core.mmu := by
  cases closes <;> rfl

theorem notes (closes : Closes done outcome) : outcome.notes = done.notes := by
  cases closes <;> rfl

theorem registers (closes : Closes done outcome) :
    outcome.cpu.core.registers = done.cpu.core.registers := by
  cases closes <;> rfl

theorem space (closes : Closes done outcome) :
    outcome.cpu.core.space = done.cpu.core.space := by
  cases closes <;> rfl

theorem clock (closes : Closes done outcome) :
    outcome.cpu.cycles = done.cpu.cycles ∧ outcome.cpu.randomOrigin = done.cpu.randomOrigin := by
  cases closes <;> exact ⟨rfl, rfl⟩

/-- Going on after a trap stays at the vector. -/
theorem pc_trap {start : Cpu} {memory : β} {trap : Trap}
    (closes : Closes (start.trap memory trap) outcome) :
    outcome.cpu.core.pc = (start.core.enter trap).1.pc := by
  cases closes <;> rfl

end Closes

variable [Bus β]

/-- The operation executes a word and enters no exception. It does so in a state that differs from
the one at its beginning in time and in search orders only. -/
structure Ran (cpu : Cpu) (bus : β) (operation : Operation) (word : Word) (start : Cpu)
    (memory : β) : Prop where
  executed : cpu.executed? bus operation = some word
  quiet : entered (cpu.operate bus operation).notes = []
  begins : start = { cpu.during operation with core := start.core }
  same : start.core.forgetOrders = cpu.core.forgetOrders
  silent : start.executeTrap memory word = none
  closes : Closes (start.execute memory word) (cpu.operate bus operation)

/-- The operation leaves for the handler of a trap, from the state at its beginning but for time and
the search orders. -/
structure Left (cpu : Cpu) (bus : β) (operation : Operation) (trap : Trap) (core : Core)
    (memory : β) : Prop where
  reported : entered (cpu.operate bus operation).notes ≠ []
  same : core.forgetOrders = cpu.core.forgetOrders
  key : ∀ {address key : Word} {intent : Intent} {kind : TlbFaultKind},
    trap = .tlbFault address key intent kind → key = searchKey address cpu.core.system.entryHi
  closes : Closes ({ cpu.during operation with core }.trap memory trap) (cpu.operate bus operation)

section

variable {cpu : Cpu} {bus : β}

theorem key_of_stepTrap {address key : Word} {intent : Intent} {kind : TlbFaultKind}
    (raised : cpu.stepTrap bus = some (.tlbFault address key intent kind)) :
    key = searchKey address cpu.core.system.entryHi := by
  -- Interrupts, the traps of instructions and the errors of the memory are no such faults.
  rcases stepTrap_cases raised with ⟨same, -⟩ | own | fetch | data | ⟨core, demand, same, unplaced⟩
  · cases same
  · cases own
  · cases kind <;> cases intent <;> cases fetch
  · cases kind <;> cases intent <;> cases data
  · rw [← Core.system_of_forgetOrders same]
    exact Core.key_of_place unplaced

theorem key_of_executeTrap {word address key : Word} {intent : Intent} {kind : TlbFaultKind}
    (raised : cpu.executeTrap bus word = some (.tlbFault address key intent kind)) :
    key = searchKey address cpu.core.system.entryHi := by
  rcases executeTrap_cases raised with own | data | ⟨demand, unplaced⟩
  · cases own
  · cases kind <;> cases intent <;> cases data
  · exact Core.key_of_place unplaced

theorem step_courses (cpu : Cpu) (bus : β) :
    (∃ word start memory, cpu.Ran bus .step word start memory) ∨
      ∃ trap core memory, cpu.Left bus .step trap core memory := by
  cases raised : cpu.stepTrap bus with
  | some trap =>
    obtain ⟨core, memory, same, stepped⟩ := step_of_trap raised
    have reported : entered (cpu.step bus).notes ≠ [] := by
      rw [entered_step, raised]
      exact List.cons_ne_nil _ _
    refine .inr ⟨trap, core, memory, reported, same, ?_, ?_⟩
    · rintro address key intent kind rfl
      exact key_of_stepTrap raised
    · rw [operate, stepped]
      exact .onward
  | none =>
    have quiet : entered (cpu.step bus).notes = [] := by
      rw [entered_step, raised]
      rfl
    -- A step that raises nothing has fetched its word, and executes it.
    rcases cpu.step_cases bus with ⟨trap, fetched, memory, -, trapped, -⟩ |
      ⟨word, fetched, memory, -, -, trapped, -⟩ | ⟨word, fetched, memory, fetch, calm, ran, stepped⟩
    · cases trapped.symm.trans raised
    · cases trapped.symm.trans raised
    · have silent := ran.symm.trans raised
      have executed := executed?_of_fetch fetch calm
      rw [fetch_of_ok fetch] at silent stepped
      refine .inl ⟨word, (cpu.tick 1).mark cpu.core.fetchDemand, memory, executed, quiet, rfl,
        Core.forgetOrders_mark _ _, silent, ?_⟩
      rw [operate, stepped]
      exact .onward

theorem execute_courses (cpu : Cpu) (bus : β) (word : Word) :
    (∃ start memory, cpu.Ran bus (.execute word) word start memory) ∨
      ∃ trap core memory, cpu.Left bus (.execute word) trap core memory := by
  cases raised : cpu.executeTrap bus word with
  | some trap =>
    obtain ⟨memory, trapped⟩ := execute_of_trap raised
    have reported : entered (cpu.execute bus word).notes ≠ [] := by
      rw [entered_execute, raised]
      exact List.cons_ne_nil _ _
    refine .inr ⟨trap, cpu.core.marked trap, memory, reported, Core.forgetOrders_marked _ _, ?_, ?_⟩
    · rintro address key intent kind rfl
      exact key_of_executeTrap raised
    · rw [operate, trapped]
      exact .here
  | none =>
    have quiet : entered (cpu.execute bus word).notes = [] := by
      rw [entered_execute, raised]
      rfl
    exact .inl ⟨cpu, bus, rfl, quiet, rfl, rfl, raised, .here⟩

/-- An operation runs an instruction to its end, or leaves for a handler, or is a change by the
host. -/
theorem operate_courses (cpu : Cpu) (bus : β) (operation : Operation) :
    (∃ word start memory, cpu.Ran bus operation word start memory) ∨
      (∃ trap core memory, cpu.Left bus operation trap core memory) ∨ operation.runs = false := by
  cases operation with
  | step => exact (cpu.step_courses bus).imp_right .inl
  | execute word =>
    rcases cpu.execute_courses bus word with ⟨start, memory, ran⟩ | left
    · exact .inl ⟨word, start, memory, ran⟩
    · exact .inr (.inl left)
  | _ => exact .inr (.inr rfl)

theorem executed?_of_host {operation : Operation} (host : operation.runs = false) :
    cpu.executed? bus operation = none := by
  cases operation with
  | step | execute word => cases host
  | _ => rfl

/-- What executes a word and enters no exception has run it to its end. -/
theorem ran_of_executed {operation : Operation} {word : Word}
    (executed : cpu.executed? bus operation = some word)
    (quiet : entered (cpu.operate bus operation).notes = []) :
    ∃ start memory, cpu.Ran bus operation word start memory := by
  rcases cpu.operate_courses bus operation with ⟨other, start, memory, ran⟩ |
    ⟨trap, core, memory, left⟩ | host
  · cases ran.executed.symm.trans executed
    exact ⟨start, memory, ran⟩
  · exact absurd quiet left.reported
  · rw [executed?_of_host host] at executed
    cases executed

/-! ### The word of an operation -/

omit [Bus β] in
/-- What an operation does after its word: a step goes on to the next instruction. -/
def close (operation : Operation) (outcome : Outcome β) : Outcome β :=
  if operation = .step then advance outcome else outcome

/-- The processor when an operation comes to execute its word. A step has fetched it by then. -/
def executing (cpu : Cpu) (operation : Operation) : Cpu :=
  if operation = .step then (cpu.tick 1).mark cpu.core.fetchDemand else cpu

omit [Bus β] in
theorem closes_close (operation : Operation) (outcome : Outcome β) :
    Closes outcome (close operation outcome) := by
  rw [close]
  split
  · exact .onward
  · exact .here

theorem forgetOrders_executing (cpu : Cpu) (operation : Operation) :
    (cpu.executing operation).core.forgetOrders = cpu.core.forgetOrders := by
  rw [executing]
  split
  · exact Core.forgetOrders_mark _ _
  · rfl

theorem executing_eq (cpu : Cpu) (operation : Operation) :
    cpu.executing operation =
      { cpu.during operation with core := (cpu.executing operation).core } := by
  cases operation <;> rfl

/-- An operation that executes a word does so in its own core, but for the search orders. -/
theorem operate_of_executed {operation : Operation} {word : Word}
    (executed : cpu.executed? bus operation = some word) :
    ∃ memory, cpu.operate bus operation =
      close operation ((cpu.executing operation).execute memory word) := by
  cases operation with
  | execute other =>
    cases executed
    exact ⟨bus, rfl⟩
  | step =>
    rcases cpu.step_cases bus with ⟨trap, fetched, memory, fetch, -, -⟩ |
      ⟨other, fetched, memory, fetch, due, -, -⟩ | ⟨other, fetched, memory, fetch, calm, -, stepped⟩
    · simp only [executed?, fetch] at executed
      cases executed
    · simp only [executed?, fetch, interruptPending_of_fetch fetch, due] at executed
      cases executed
    · cases (executed?_of_fetch fetch calm).symm.trans executed
      rw [fetch_of_ok fetch] at stepped
      exact ⟨memory, stepped⟩
  | _ => cases executed

end

section

variable {cpu start : Cpu} {bus memory : β} {operation : Operation} {word : Word}

theorem Ran.random (ran : cpu.Ran bus operation word start memory) :
    start.random = cpu.randomDuring operation := by
  rw [ran.begins]
  rfl

theorem Ran.system (ran : cpu.Ran bus operation word start memory) :
    start.core.system = cpu.core.system := Core.system_of_forgetOrders ran.same

/-- An instruction of system control that raises nothing has completed. -/
theorem retired_of_none {op : SystemOp} (silent : cpu.executeTrap bus word = none)
    (decoded : decode word = .system op) :
    ∃ next notes extra, cpu.core.issueSystem cpu.random word op = .retire next notes extra ∧
      cpu.execute bus word = ⟨{ cpu with core := next }.tick extra, bus, notes⟩ := by
  have issue : cpu.core.issue cpu.random word = cpu.core.issueSystem cpu.random word op := by
    rw [Core.issue, decoded]
    rfl
  have asks := cpu.core.asks_issueSystem cpu.random word op
  -- The other two ends of an instruction are those of a load and of a store.
  rcases execute_of_none silent with done | ⟨load, value, memory, issued, -⟩ |
    ⟨store, icache, dcache, memory, issued, -⟩
  · rw [issue] at done
    exact done
  · rw [← issue, issued] at asks
    cases asks
  · rw [← issue, issued] at asks
    cases asks

end

end Cpu

end R3000

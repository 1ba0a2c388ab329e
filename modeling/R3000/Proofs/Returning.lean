import R3000.Proofs.ModeStack
import R3000.Proofs.OrderIndependence
import R3000.Proofs.PreciseExceptions
import R3000.Proofs.UserMode

/-!
# Returning from a handler

The shortest handler does nothing but return: it moves the restart address into a register that
programs leave to the kernel, jumps there, and pops the mode stack in the delay slot of the jump.

Handlers run from the unmapped windows, in kernel mode and with interrupts off, so nothing can
come between their instructions and no search order moves. What the three instructions do is
computed as one change of the core. Popping then undoes what entering has pushed, and only the
oldest pair of modes is lost.
-/
namespace R3000

/-! ### The words of the handler -/

/-- The memory answers the reads of successive words, from `place` on, with these words. -/
inductive Bus.Supplies {β : Type} [Bus β] : β → Word → List Word → β → Prop where
  | nothing (bus : β) (place : Word) : Supplies bus place [] bus
  | word {bus next after : β} {place word : Word} {rest : List Word}
      (read : Bus.read bus .word place = (.ok word, next))
      (later : Supplies next (place + 4) rest after) :
      Supplies bus place (word :: rest) after

/-- Reads that do not change the memory leave it as it was. -/
theorem Bus.Supplies.unchanged {β : Type} [Bus β] {bus after : β} {place : Word}
    {words : List Word} (supplies : Bus.Supplies bus place words after)
    (keeps : ∀ place, (Bus.read bus .word place).2 = bus) : after = bus := by
  induction supplies with
  | nothing bus place => rfl
  | @word bus next after place word rest read later ih =>
    have kept : next = bus := by
      have same := keeps place
      rw [read] at same
      exact same
    subst kept
    exact ih keeps

namespace Cpu

variable {β : Type} [Bus β]

/-! ### Steps of a handler -/

section

variable (cpu : Cpu) {bus memory : β} {word place : Word}

/-- For the kernel, from an unmapped address and with interrupts off, a step executes the word
that the memory holds, whatever is mapped and whatever is pending. -/
theorem step_of_unmapped (masked : cpu.core.system.status &&& 0x3 = 0)
    (aligned : Width.word.aligned cpu.core.pc = true)
    (unmapped : route false cpu.core.pc = .unmapped place)
    (read : Bus.read bus .word place = (.ok word, memory)) :
    cpu.step bus = advance ((cpu.tick 1).execute memory word) := by
  obtain ⟨kernel, disabled⟩ := Status.masked_of_present masked
  change cpu.core.userMode = false at kernel
  have calm : cpu.interruptDue = false := by
    simp only [interruptDue, disabled, Bool.false_and]
  have resolved : cpu.core.resolve cpu.core.userMode cpu.core.pc .fetch = .ok place := by
    simp only [Core.resolve, kernel, unmapped]
  -- An unmapped access uses no search order.
  have unmarked : cpu.core.mark cpu.core.fetchDemand = cpu.core := by
    simp only [Core.mark, Core.fetchDemand, Core.touch, kernel, unmapped]
  have fetch : (cpu.tick 1).fetch bus = (.ok word, cpu.tick 1, memory) := by
    have placed : cpu.core.place cpu.core.fetchDemand = .ok place :=
      Core.place_translated (by simp [Demand.misaligned, Core.fetchDemand, aligned]) resolved
    rw [fetch_eq]
    simp only [tick, placed, read, mark, unmarked]
  exact step_of_execute fetch calm

/-- The kernel may use coprocessor 0 without permission. -/
theorem execute_moveFromEpc (kernel : cpu.core.userMode = false) (bus : β) :
    cpu.execute bus 0x401a7000 =
      ⟨{ cpu with core := cpu.core.setReg 26 cpu.core.system.epc }, bus, []⟩ := by
  have decoded : decode 0x401a7000 = .system (.moveFrom 26 14) := by decide
  have issued : cpu.core.issue cpu.random 0x401a7000 =
      .done (cpu.core.setReg 26 cpu.core.system.epc) := by
    simp only [Core.issue, decoded, Core.issueInstr, Core.issueSystem, kernel, Bool.false_and,
      Bool.false_eq_true, if_false]
    rfl
  simp only [execute, issued]
  rfl

theorem execute_jumpRegister (bus : β) :
    cpu.execute bus 0x03400008 =
      ⟨{ cpu with core := cpu.core.branchTo (cpu.core.reg 26) }, bus, []⟩ := by
  have decoded : decode 0x03400008 = .jumpRegister none 26 := by decide
  simp only [execute, Core.issue, decoded, Core.issueInstr]
  rfl

theorem execute_restoreMode (kernel : cpu.core.userMode = false) (bus : β) :
    cpu.execute bus 0x42000010 =
      ⟨{ cpu with core := cpu.core.restoreMode.1 }, bus, cpu.core.restoreMode.2⟩ := by
  have decoded : decode 0x42000010 = .system .restoreMode := by decide
  simp only [execute, Core.issue, decoded, Core.issueInstr, Core.issueSystem, kernel,
    Bool.false_and, Bool.false_eq_true, if_false]
  rfl

end

/-! ### The handler -/

/-- The words that move the restart address to register 26, jump there, and restore the mode. -/
def returnSequence : List Word := [0x401a7000, 0x03400008, 0x42000010]

end Cpu

namespace Core

/-- The core after the first word of the handler. -/
def restartKnown (core : Core) : Core :=
  { core with registers := core.registers.write 26 core.system.epc, pc := core.pc + 4 }

/-- The core after the second word: the third is in the delay slot of the jump. -/
def jumpingBack (core : Core) : Core :=
  { core.restartKnown with pc := core.pc + 4 + 4, sequencer := ⟨.delay, core.system.epc⟩ }

/-- The core after the handler has returned. -/
def returned (core : Core) : Core :=
  { core.restartKnown with
    pc := core.system.epc
    sequencer := ⟨.none, core.system.epc⟩
    system := core.system.popMode }

/-- Without a branch, going on is going to the next address. -/
theorem advance_of_straight {core : Core} (straight : core.sequencer.state = .none) :
    core.advance = { core with pc := core.pc + 4 } := by
  have next : core.sequencer.next = core.sequencer := by
    rw [Sequencer.next, if_neg (by simp [straight]), ← straight]
  have nextPc : core.sequencer.nextPc core.pc = core.pc + 4 := by
    simp only [Sequencer.nextPc, straight]
  simp only [advance, next, nextPc]

end Core

/-- An address from which the kernel fetches the word at `place`, whatever is mapped. -/
def Unmapped (address place : Word) : Prop :=
  Width.word.aligned address = true ∧ route false address = .unmapped place

instance (address place : Word) : Decidable (Unmapped address place) :=
  inferInstanceAs (Decidable (_ ∧ _))

/-- The first words of each handler are unmapped, and successive in memory as well. -/
theorem unmapped_of_handlers : ∀ vector ∈ handlers,
    Unmapped vector (vector &&& 0x1fffffff) ∧
      Unmapped (vector + 4) ((vector &&& 0x1fffffff) + 4) ∧
        Unmapped (vector + 4 + 4) ((vector &&& 0x1fffffff) + 4 + 4) := by
  intro vector handler
  simp only [handlers, List.mem_cons, List.not_mem_nil, or_false] at handler
  rcases handler with rfl | rfl | rfl | rfl <;> decide

namespace Cpu

variable {β : Type} [Bus β]

/-- All that the three steps change is the core, as stated, and the time. -/
theorem steps_of_returnSequence {cpu : Cpu} {bus after : β} (handler : cpu.core.pc ∈ handlers)
    (straight : cpu.core.sequencer.state = .none)
    (masked : cpu.core.system.status &&& 0x3 = 0)
    (supplies : Bus.Supplies bus (cpu.core.pc &&& 0x1fffffff) returnSequence after) :
    cpu.steps bus 3 =
      ⟨{ cpu with core := cpu.core.returned, cycles := cpu.cycles + 3 }, after,
        cpu.core.restoreMode.2⟩ := by
  obtain ⟨first, second, third⟩ := unmapped_of_handlers _ handler
  have kernel : cpu.core.userMode = false := (Status.masked_of_present masked).1
  -- The words are read one after the other.
  obtain _ | @⟨_, once, _, _, _, _, read, supplies⟩ := supplies
  obtain _ | @⟨_, twice, _, _, _, _, read', supplies⟩ := supplies
  obtain _ | @⟨_, _, _, _, _, _, read'', supplies⟩ := supplies
  cases supplies
  let moved : Cpu := { cpu with core := cpu.core.restartKnown, cycles := cpu.cycles + 1 }
  let jumped : Cpu := { cpu with core := cpu.core.jumpingBack, cycles := cpu.cycles + 2 }
  have one : cpu.step bus = ⟨moved, once, []⟩ := by
    have onward : (cpu.core.setReg 26 cpu.core.system.epc).advance = cpu.core.restartKnown :=
      Core.advance_of_straight straight
    rw [cpu.step_of_unmapped masked first.1 first.2 read, (cpu.tick 1).execute_moveFromEpc kernel]
    simp only [advance, tick, onward, moved]
  -- The jump finds the address where the first word has put it.
  have two : moved.step once = ⟨jumped, twice, []⟩ := by
    have target : cpu.core.restartKnown.reg 26 = cpu.core.system.epc := by
      simp [Core.restartKnown, Core.reg, Registers.read_write]
    rw [moved.step_of_unmapped masked second.1 second.2 read', execute_jumpRegister]
    simp only [advance, tick, moved, Core.branchTo, target]
    rfl
  -- Its delay slot ends in the program, already in the program's mode.
  have three : jumped.step twice =
      ⟨{ cpu with core := cpu.core.returned, cycles := cpu.cycles + 3 }, after,
        cpu.core.restoreMode.2⟩ := by
    rw [jumped.step_of_unmapped masked third.1 third.2 read'',
      (jumped.tick 1).execute_restoreMode kernel]
    rfl
  simp only [steps, one, two, three, List.nil_append]

end Cpu

/-! ### There and back -/

namespace Core

/-- A program was left by `before`, its handler began at `left`, and it goes on at `after`. -/
structure ReturnsTo (before left after : Core) : Prop where
  pc : after.pc = left.system.epc
  restartsAt : hasAny left.system.cause 0x80000000 = false → left.system.epc = before.pc
  restartsBranch : hasAny left.system.cause 0x80000000 = true → left.system.epc = before.pc - 4
  sequencer : after.sequencer.state = .none
  status : after.system.status = replaceBits before.system.status 0x30 (before.system.status <<< 2)
  registers : ∀ reg ≠ 26, after.registers.read reg = left.registers.read reg
  hi : after.registers.hi = left.registers.hi
  lo : after.registers.lo = left.registers.lo
  fpu : after.fpu = left.fpu
  mmu : after.mmu = left.mmu

theorem returnsTo_enter (core : Core) (trap : Trap) :
    core.ReturnsTo (core.enter trap).1.advance (core.enter trap).1.advance.returned := by
  have epc : (core.enter trap).1.advance.system.epc = core.restartPc := epc_enter core trap
  have delay : hasAny (core.enter trap).1.advance.system.cause 0x80000000 =
      core.sequencer.inDelaySlot := by
    have cause : (core.enter trap).1.advance.system.cause = _ := cause_enter core trap
    rw [cause, causeAfter_delay]
  have status : (core.enter trap).1.advance.system.status = Status.push core.system.status :=
    status_enter core trap
  constructor
  case pc => rfl
  case restartsAt =>
    intro clear
    rw [epc, restartPc, ← delay, clear]
    rfl
  case restartsBranch =>
    intro marked
    rw [epc, restartPc, ← delay, marked]
    rfl
  case sequencer => rfl
  case status =>
    rw [← Status.pop_push, ← status]
    simp [returned, restartKnown, SystemControl.popMode, SystemControl.putStatus,
      SystemControl.status, SystemControl.read_put]
  case registers =>
    intro reg other
    simp [returned, restartKnown, Registers.read_write, other]
  case hi => exact Registers.hi_write _ _ _
  case lo => exact Registers.lo_write _ _ _
  case fpu => rfl
  case mmu => rfl

theorem returnsTo_of_forgetOrders {core other : Core}
    (same : core.forgetOrders = other.forgetOrders) (trap : Trap) :
    other.ReturnsTo (core.enter trap).1.advance (core.enter trap).1.advance.returned := by
  -- What is compared with the time before does not depend on the search orders.
  have there := core.returnsTo_enter trap
  have samePc : core.pc = other.pc := (congrArg Core.pc same :)
  have sameSystem := system_of_forgetOrders same
  constructor
  case restartsAt =>
    rw [← samePc]
    exact there.restartsAt
  case restartsBranch =>
    rw [← samePc]
    exact there.restartsBranch
  case status =>
    rw [← sameSystem]
    exact there.status
  case pc => exact there.pc
  case sequencer => exact there.sequencer
  case registers => exact there.registers
  case hi => exact there.hi
  case lo => exact there.lo
  case fpu => exact there.fpu
  case mmu => exact there.mmu

end Core

namespace Cpu

variable {β : Type} [Bus β]

/-- An exception and a return are a round trip. When a step enters an exception, and the memory
supplies the shortest handler at its vector, the next three steps enter no other, and lead back
to the restart address in the mode of the program. Only register 26 and the oldest pair of modes
differ from what they were when the handler began. The memory has been read three times, so it is
the same if reads do not change it. -/
theorem step_returns (cpu : Cpu) {bus after : β} (trapped : entered (cpu.step bus).notes ≠ [])
    (supplies : Bus.Supplies (cpu.step bus).bus ((cpu.step bus).cpu.core.pc &&& 0x1fffffff)
      [0x401a7000, 0x03400008, 0x42000010] after) :
    let left := cpu.step bus
    let returned := left.cpu.steps left.bus 3
    (∃ trap, cpu.stepTrap bus = some trap ∧ cpu.core.HandlerOf trap left.cpu.core) ∧
      entered returned.notes = [] ∧
      cpu.core.ReturnsTo left.cpu.core returned.cpu.core ∧
      returned.cpu.icache = left.cpu.icache ∧ returned.cpu.dcache = left.cpu.dcache ∧
      returned.bus = after ∧
      ((∀ place, (Bus.read left.bus .word place).2 = left.bus) → returned.bus = left.bus) := by
  obtain ⟨trap, raised⟩ := stepTrap_of_entered trapped
  obtain ⟨core, memory, same, stepped⟩ := step_of_trap raised
  have handler : cpu.core.HandlerOf trap (cpu.step bus).cpu.core := by
    rw [stepped]
    exact Core.handlerOf_of_forgetOrders same trap
  have taken : cpu.core.TakenOver (cpu.step bus).cpu.core := by
    rw [stepped]
    exact Core.takenOver_enter same trap
  have back : cpu.core.ReturnsTo (cpu.step bus).cpu.core (cpu.step bus).cpu.core.returned := by
    rw [stepped]
    exact Core.returnsTo_of_forgetOrders same trap
  -- What a handler finds is all that the run of this one asks for.
  intro left returned
  have run : returned = ⟨{ left.cpu with
      core := left.cpu.core.returned, cycles := left.cpu.cycles + 3 }, after,
      left.cpu.core.restoreMode.2⟩ :=
    steps_of_returnSequence taken.handler handler.noBranch taken.kernel supplies
  rw [run]
  refine ⟨⟨trap, raised, handler⟩, ?_, back, rfl, rfl, rfl, supplies.unchanged⟩
  exact Core.entered_modeChange _ _

/-- The shortest handler, at the vector that is used until the kernel has set up its own. -/
def bootHandler : Ram where
  base := 0x1fc00180
  order := .big
  faults := []
  data := #[0x40, 0x1a, 0x70, 0x00, 0x03, 0x40, 0x00, 0x08, 0x42, 0x00, 0x00, 0x10]

/-- A program in user mode with interrupts enabled, at an address that belongs to the kernel. -/
def astray : Cpu := ((Cpu.build (.ofModel .r3000A)).1.setSystemReg 12 0x0040000b).1

/-- The program is sent back to where it went astray, in user mode and with interrupts enabled. -/
theorem step_returns_astray :
    entered (astray.step bootHandler).notes = [.addressLoad] ∧
      let left := astray.step bootHandler
      let returned := left.cpu.steps left.bus 3
      entered returned.notes = [] ∧ returned.cpu.core.pc = 0xbfc00000 ∧
        returned.cpu.core.system.status = 0x0040002b ∧ returned.bus = left.bus := by
  have trapped : entered (astray.step bootHandler).notes = [.addressLoad] := by decide +kernel
  have vector : (astray.step bootHandler).cpu.core.pc &&& 0x1fffffff = 0x1fc00180 := by
    decide +kernel
  have same : (astray.step bootHandler).bus = bootHandler := by rfl
  have supplies : Bus.Supplies (astray.step bootHandler).bus
      ((astray.step bootHandler).cpu.core.pc &&& 0x1fffffff)
      [0x401a7000, 0x03400008, 0x42000010] bootHandler := by
    rw [vector, same]
    exact .word rfl (.word rfl (.word rfl (.nothing _ _)))
  obtain ⟨-, quiet, back, -, -, -, kept⟩ :=
    astray.step_returns (by rw [trapped]; decide) supplies
  refine ⟨trapped, quiet, ?_, ?_, kept fun _ => rfl⟩
  · rw [back.pc, back.restartsAt (by decide +kernel)]
    rfl
  · rw [back.status]
    decide +kernel

end Cpu

end R3000

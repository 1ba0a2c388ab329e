import R3000.Proofs.FloatInterrupt
import R3000.Proofs.Histories
import R3000.Proofs.ModeStack

/-!
# What decides on modes, interrupts and the memory for data

Four parts of a processor decide in which mode a program runs, which interrupts it takes, and where
its data goes. Few of the things that a program or a host does change them, and each in its own way.
All that can happen to them in one operation is listed here, with the changes of mode that are
reported meanwhile, so that what depends on them is proved by the cases of this list and by no other
look at the instructions.
-/
namespace R3000

structure Regime where
  status : Word
  cause : Word
  space : DataSpace
  /-- The interrupt input that the floating point unit drives, if there is a unit. -/
  unitLine : Option Nat

def Core.regime (core : Core) : Regime :=
  ⟨core.system.status, core.system.cause, core.space, core.fpu.map (·.irq)⟩

/-! ### Reports of the mode -/

/-- The modes that the notes report to have been changed to, in order: true is user mode. -/
def modeReports (notes : List Note) : List Bool :=
  (events notes).filterMap fun
    | .privilegeChange user => some user
    | _ => none

/-- What there is to report when the status register goes from one value to another. -/
def modeSwitch (before after : Word) : List Bool :=
  if Status.userMode before = Status.userMode after then [] else [Status.userMode after]

@[simp] theorem modeReports_append (first second : List Note) :
    modeReports (first ++ second) = modeReports first ++ modeReports second := by
  simp [modeReports]

theorem Routine.modeReports {notes : List Note} (routine : Routine notes) :
    modeReports notes = [] := by
  apply List.filterMap_eq_nil_iff.mpr
  intro event member
  have calm := routine event member
  cases event with
  | privilegeChange user => cases calm
  | _ => rfl

@[simp] theorem modeReports_modeChange (before after : Word) :
    modeReports (Core.modeChange before after) = modeSwitch before after := by
  simp only [Core.modeChange, modeSwitch]
  split <;> rfl

/-! ### What can happen -/

/-- What a deed makes of a regime, and the modes that it reports. While an exception is being
taken, changes of the status register are not reported. -/
inductive Regime.After (before : Regime) (taking : Bool) (deed : Deed) :
    Regime → List Bool → Prop where
  /-- An instruction computes, or a host does something else. -/
  | spared : After before taking deed before []
  /-- A handler is entered. The interrupts that were pending still are. -/
  | entered {cause : Word} (pending : cause &&& 0x0000ff00 = before.cause &&& 0x0000ff00) :
      After before taking deed { before with status := Status.push before.status, cause }
        (modeSwitch before.status (Status.push before.status))
  /-- The floating point unit or the host drives an interrupt input. -/
  | drove {line : Nat} {cause : Word} (wired : line < 6)
      (driver : before.unitLine = some line ∨ ∃ level, deed.operation = .setInput line level)
      (others : cause &&& ~~~Cause.inputBit line = before.cause &&& ~~~Cause.inputBit line) :
      After before taking deed { before with cause } []
  | wroteStatus (writes : deed.Writes 12) (value : Word) :
      After before taking deed { before with status := value, space := .ofStatus value }
        (if taking then [] else modeSwitch before.status value)
  /-- The status register is written under another number, which is all that this does. -/
  | wroteAlias {number : Nat} (writes : deed.Writes number) (beyond : number ≠ 12)
      (same : number % 32 = 12) (value : Word) :
      After before taking deed { before with status := value } []
  | wroteCause {number : Nat} (writes : deed.Writes number) (same : number % 32 = 13)
      (value : Word) :
      After before taking deed { before with cause := replaceBits value Cause.ipex before.cause } []
  | restored (executed : deed.instr? = some (.system .restoreMode)) :
      After before taking deed { before with status := Status.pop before.status }
        (modeSwitch before.status (Status.pop before.status))
  | reset (asked : deed.operation = .reset) {status : Word}
      (booting : status = Status.bev ||| Status.ts ∨ status = Status.bev) :
      After before taking deed ⟨status, 0, .program, before.unitLine⟩
        (modeSwitch before.status (Status.bev ||| Status.ts))

/-- A host writes the status register under its own number, not under another one that selects the
register as well. -/
def Operation.namesStatus : Operation → Bool
  | setSystemReg number _ => number == 12 || number % 32 != 12
  | _ => true

/-- Programs have one number for each register. -/
theorem Deed.eq_of_writes {deed : Deed} {number : Nat}
    (names : deed.operation.namesStatus = true) (writes : deed.Writes number)
    (same : number % 32 = 12) : number = 12 := by
  cases writes with
  | host asked =>
    rw [asked] at names
    simp only [Operation.namesStatus, same, bne_self_eq_false, Bool.or_false, beq_iff_eq] at names
    exact names
  | @program rt target executed =>
    have small := target.val_lt
    omega

namespace Core

/-! ### Parts of the core that do not matter -/

theorem regime_of_forgetOrders {core other : Core} (same : core.forgetOrders = other.forgetOrders) :
    core.regime = other.regime := by
  rw [eq_of_forgetOrders same]
  rfl

/-- Of the system registers, the status and the cause matter only. -/
theorem regime_put (core : Core) {reg : RegNum} (notStatus : reg ≠ SystemControl.statusReg)
    (notCause : reg ≠ SystemControl.causeReg) (value : Word) :
    { core with system := core.system.put reg value }.regime = core.regime := by
  simp only [regime, SystemControl.status, SystemControl.cause, SystemControl.read_put,
    if_neg notStatus.symm, if_neg notCause.symm]

theorem regime_putStatus (core : Core) (value : Word) :
    { core with system := core.system.put SystemControl.statusReg value }.regime =
      { core.regime with status := value } := by
  simp +decide [regime, SystemControl.status, SystemControl.cause, SystemControl.read_put]

theorem regime_putCause (core : Core) (value : Word) :
    { core with system := core.system.put SystemControl.causeReg value }.regime =
      { core.regime with cause := value } := by
  simp +decide [regime, SystemControl.status, SystemControl.cause, SystemControl.read_put]

theorem regime_receive (core : Core) (destination : Destination) {width : Width}
    (value : BitVec width.bits) : (core.receive destination value).regime = core.regime := by
  cases destination with
  | float ft =>
    simp only [receive, regime, Option.map_map]
    rfl
  | _ => rfl

/-! ### Parts that do -/

section

variable (core : Core) {taking : Bool} {deed : Deed}

theorem modeReports_enter (trap : Trap) :
    modeReports (core.enter trap).2 =
      modeSwitch core.system.status (Status.push core.system.status) := by
  have silent : modeReports (trap.notes core.pc) = [] := by
    cases trap <;> rfl
  have mode : Status.userMode core.system.status = core.userMode := rfl
  rw [notes_enter, modeReports_append, modeReports_append, silent]
  simp only [modeSwitch, Status.userMode_push, mode]
  cases core.userMode <;> rfl

theorem after_enter (trap : Trap) :
    core.regime.After taking deed (core.enter trap).1.regime
      (modeReports (core.enter trap).2) := by
  have left : (core.enter trap).1.regime = { core.regime with
      status := Status.push core.system.status, cause := core.causeAfter trap.exception } := by
    simp only [regime, status_enter, cause_enter]
    rfl
  rw [left, modeReports_enter]
  exact .entered (core.causeAfter_pending _)

theorem regime_setInput (line : Nat) (level : Bool) :
    (core.setInput line level).1.regime =
      { core.regime with cause := (core.setInput line level).1.system.cause } := by
  have status : (core.setInput line level).1.system.status = core.system.status :=
    (core.system_setInput line level).1 SystemControl.statusReg (by decide)
  have space : (core.setInput line level).1.space = core.space := by
    simp only [setInput]
    split
    · rfl
    · split <;> rfl
  simp only [regime, status, space, fpu_setInput]

theorem after_setInput {line : Nat} (level : Bool)
    (driver : core.regime.unitLine = some line ∨ ∃ level, deed.operation = .setInput line level) :
    core.regime.After taking deed (core.setInput line level).1.regime
      (modeReports (core.setInput line level).2) := by
  rw [(core.routine_setInput line level).modeReports]
  by_cases wired : line < 6
  · rw [regime_setInput]
    exact .drove wired driver (core.system_setInput line level).2
  · -- An input that does not exist is ignored.
    have ignored : (core.setInput line level).1 = core := by
      simp only [setInput, if_pos (Nat.le_of_not_lt wired)]
    rw [ignored]
    exact .spared

theorem after_writeSystem {number : Nat} (writes : deed.Writes number) (value : Word) :
    core.regime.After (core.sequencer.state == .exception) deed
      (core.writeSystem number value).1.regime
      (modeReports (core.writeSystem number value).2) := by
  have selected : (Registers.select number).val = number % 32 := rfl
  simp only [writeSystem]
  split
  next named =>
    rw [named] at writes
    have written : (core.writeStatus value).1.regime =
        { core.regime with status := value, space := .ofStatus value } :=
      congrArg (fun regime : Regime => { regime with space := .ofStatus value })
        (core.regime_putStatus value)
    have reports : modeReports (core.writeStatus value).2 =
        if core.sequencer.state == .exception then []
        else modeSwitch core.system.status value := by
      simp only [writeStatus, beq_iff_eq]
      split
      · rfl
      · exact modeReports_modeChange _ _
    rw [written, reports]
    exact .wroteStatus writes value
  next beyond =>
    -- By any other number only the value is stored, whichever register it selects.
    change core.regime.After _ deed (regime { core with
      system := core.system.put (Registers.select number) (core.system.writtenValue
        core.mmu.hasBuffer (Registers.select number) value) }) []
    by_cases status : Registers.select number = SystemControl.statusReg
    · rw [status] at selected ⊢
      rw [regime_putStatus]
      exact .wroteAlias writes beyond selected.symm _
    · by_cases cause : Registers.select number = SystemControl.causeReg
      · rw [cause] at selected ⊢
        rw [regime_putCause]
        exact .wroteCause writes selected.symm value
      · rw [core.regime_put status cause]
        exact .spared

theorem after_restoreMode (executed : deed.instr? = some (.system .restoreMode)) :
    core.regime.After taking deed core.restoreMode.1.regime
      (modeReports core.restoreMode.2) := by
  have popped : core.restoreMode.1.regime =
      { core.regime with status := Status.pop core.system.status } := core.regime_putStatus _
  have status : core.restoreMode.1.system.status = Status.pop core.system.status :=
    congrArg Regime.status popped
  have notes : core.restoreMode.2 =
      modeChange core.system.status core.restoreMode.1.system.status := rfl
  rw [popped, notes, status, modeReports_modeChange]
  exact .restored executed

theorem status_resetSystem {core : Core}
    (booting : core.system.status = Status.bev ||| Status.ts) :
    core.resetSystem.status = Status.bev ||| Status.ts ∨ core.resetSystem.status = Status.bev := by
  have stored : ((core.system.putCause 0).put SystemControl.pridReg core.config.cpurev).status =
      Status.bev ||| Status.ts := by
    rw [← booting]
    simp +decide [SystemControl.putCause, SystemControl.status, SystemControl.read_put]
  have kept (system : SystemControl) : system.resetBusRegisters.status = system.status := by
    simp +decide [SystemControl.resetBusRegisters, SystemControl.status, SystemControl.read_put]
  have cleared (system : SystemControl) (value : Word) :
      (system.putStatus value).status = value := by
    simp [SystemControl.putStatus, SystemControl.status, SystemControl.read_put]
  simp only [resetSystem, apply_ite SystemControl.status, kept, ite_self]
  -- Only a part that translates with the buffer clears the shutdown bit.
  cases core.mmu with
  | fixed | bypass buffer => exact .inl stored
  | tlb buffer =>
    rw [cleared, stored]
    exact .inr (by decide)

theorem after_reset (asked : deed.operation = .reset) :
    core.regime.After taking deed core.reset.1.regime (modeReports core.reset.2) := by
  have written : ((core.setPc resetVector).writeStatus (Status.bev ||| Status.ts)).1.system.status
      = Status.bev ||| Status.ts :=
    congrArg Regime.status ((core.setPc resetVector).regime_putStatus (Status.bev ||| Status.ts))
  have status : core.reset.1.system.status = Status.bev ||| Status.ts ∨
      core.reset.1.system.status = Status.bev := status_resetSystem written
  have cause : core.reset.1.system.cause = 0 := Cpu.cause_resetSystem _
  -- The status register is written when no exception is being taken any more.
  have notes : core.reset.2 = modeChange core.system.status (Status.bev ||| Status.ts) ++
      [.message (.reset core.config.model core.config.cpurev)] := rfl
  have regime : core.reset.1.regime =
      ⟨core.reset.1.system.status, 0, .program, core.regime.unitLine⟩ := by
    simp only [Core.regime, cause]
    rfl
  have silent : modeReports [.message (.reset core.config.model core.config.cpurev)] = [] := rfl
  rw [regime, notes, modeReports_append, modeReports_modeChange, silent, List.append_nil]
  exact .reset asked status

end

/-! ### Instructions that complete -/

theorem after_issueSystem {core next : Core} {random : Fin 64} {word : Word} {op : SystemOp}
    {notes : List Note} {extra : Nat} {deed : Deed} (executed : deed.instr? = some (.system op))
    (issued : core.issueSystem random word op = .retire next notes extra) :
    core.regime.After (core.sequencer.state == .exception) deed next.regime
      (modeReports notes) := by
  cases issueSystem_completes issued with
  | moveFrom rt source => exact .spared
  | moveTo rt target => exact core.after_writeSystem (.program executed) _
  | branch branch =>
    obtain ⟨pc, sequencer, branched⟩ := core.branchIf_eq
      (core.condition 0 == branch.sense) branch.likely branch.offset
    rw [branched]
    exact .spared
  | restoreMode => exact core.after_restoreMode executed
  | readSlot entry =>
    have unchanged : regime { core with system := core.system.putEntry entry } = core.regime := by
      simp +decide [regime, SystemControl.putEntry, SystemControl.status, SystemControl.cause,
        SystemControl.read_put]
    rw [unchanged]
    exact .spared
  | writeSlot slot byChance => exact .spared
  | probe key found =>
    rw [core.regime_put (by decide) (by decide)]
    exact .spared

theorem Completes.after {core next : Core} {random : Fin 64} {word : Word} {instr : Instr}
    {notes : List Note} {deed : Deed} (completes : core.Completes random word instr next notes)
    (executed : deed.instr? = some instr) :
    core.regime.After (core.sequencer.state == .exception) deed next.regime
      (modeReports notes) := by
  cases completes with
  | program registers pc sequencer silent =>
    rw [(Routine.of_silent silent).modeReports]
    exact .spared
  | @unit unit next update prior usable present sameLine settled routine =>
    have stored : regime { core with fpu := some next } = core.regime := by
      simp only [regime, present, Option.map_some, sameLine]
    rw [modeReports_append, routine.modeReports, List.nil_append]
    cases update with
    | none =>
      change core.regime.After _ deed (regime { core with fpu := some next }) []
      rw [stored]
      exact .spared
    | some level =>
      -- Putting back the unit drives its own input.
      have own : (regime { core with fpu := some next }).unitLine = some next.irq := rfl
      rw [← stored]
      exact after_setInput _ level (.inl own)
  | system decoded permitted issued =>
    subst decoded
    exact after_issueSystem executed issued

end Core

/-! ### Operations -/

namespace Cpu

variable {β : Type} [Bus β]

theorem execute_after {word : Word} {deed : Deed} (cpu : Cpu) (bus : β)
    (executed : deed.executed = some word) :
    cpu.core.regime.After (cpu.core.sequencer.state == .exception) deed
      (cpu.execute bus word).cpu.core.regime (modeReports (cpu.execute bus word).notes) := by
  cases raised : cpu.executeTrap bus word with
  | some trap =>
    obtain ⟨memory, trapped⟩ := execute_of_trap raised
    have marked := Core.regime_of_forgetOrders (Core.forgetOrders_marked cpu.core trap)
    rw [trapped, ← marked]
    exact Core.after_enter _ trap
  | none =>
    rcases execute_of_none raised with ⟨next, notes, extra, issued, done⟩ |
      ⟨load, value, memory, -, done⟩ | ⟨store, icache, dcache, memory, -, done⟩
    · have instr : deed.instr? = some (decode word) := congrArg (Option.map decode) executed
      rw [done]
      exact (Core.issueInstr_completes issued).after instr
    · have marked := Core.regime_of_forgetOrders (Core.forgetOrders_mark cpu.core load.demand)
      rw [done, Core.regime_receive, marked]
      exact .spared
    · have marked := Core.regime_of_forgetOrders (Core.forgetOrders_mark cpu.core store.demand)
      rw [done, marked]
      exact .spared

theorem executed?_of_fetch {cpu fetched : Cpu} {bus memory : β} {word : Word}
    (fetch : (cpu.tick 1).fetch bus = (.ok word, fetched, memory))
    (calm : cpu.interruptDue = false) : cpu.executed? bus .step = some word := by
  have pending := interruptPending_of_fetch fetch
  simp only [executed?, fetch, pending, calm, Bool.false_eq_true, if_false]

theorem step_after_of_trap {cpu : Cpu} {bus : β} {trap : Trap} {taking : Bool} {deed : Deed}
    (raised : cpu.stepTrap bus = some trap) :
    cpu.core.regime.After taking deed (cpu.step bus).cpu.core.regime
      (modeReports (cpu.step bus).notes) := by
  obtain ⟨core, memory, same, stepped⟩ := step_of_trap raised
  rw [stepped, ← Core.regime_of_forgetOrders same]
  -- Going on to the first instruction of the handler changes nothing of this.
  exact Core.after_enter core trap

theorem step_after (cpu : Cpu) (bus : β) :
    cpu.core.regime.After (cpu.core.sequencer.state == .exception) (cpu.deed bus .step)
      (cpu.step bus).cpu.core.regime (modeReports (cpu.step bus).notes) := by
  rcases cpu.step_cases bus with ⟨trap, fetched, memory, -, raised, -⟩ |
    ⟨word, fetched, memory, -, -, raised, -⟩ | ⟨word, fetched, memory, fetch, calm, -, stepped⟩
  · exact step_after_of_trap raised
  · exact step_after_of_trap raised
  · have executed : (cpu.deed bus .step).executed = some word := executed?_of_fetch fetch calm
    have ran := fetched.execute_after memory executed
    rw [fetch_of_ok fetch] at ran stepped
    have same := Core.forgetOrders_mark cpu.core cpu.core.fetchDemand
    have sequencer : (cpu.core.mark cpu.core.fetchDemand).sequencer = cpu.core.sequencer :=
      (congrArg Core.sequencer same :)
    rw [stepped, ← Core.regime_of_forgetOrders same, ← sequencer]
    -- Going on to the next instruction changes nothing of this either.
    exact ran

/-- Whatever a host does is in the list. -/
theorem operate_after (cpu : Cpu) (bus : β) (operation : Operation) :
    cpu.core.regime.After (cpu.core.sequencer.state == .exception) (cpu.deed bus operation)
      (cpu.operate bus operation).cpu.core.regime
      (modeReports (cpu.operate bus operation).notes) := by
  cases operation with
  | step => exact step_after cpu bus
  | execute word => exact cpu.execute_after bus rfl
  | reset => exact Core.after_reset _ rfl
  | setSystemReg number value => exact Core.after_writeSystem _ (.host rfl) value
  | setInput line level => exact Core.after_setInput _ level (.inr ⟨level, rfl⟩)
  | setFpr number value =>
    have unchanged : (cpu.setFpr number value).core.regime = cpu.core.regime := by
      simp only [setFpr, Core.regime, Option.map_map]
      rfl
    change cpu.core.regime.After _ _ (cpu.setFpr number value).core.regime []
    rw [unchanged]
    exact .spared
  | setPc pc => exact .spared
  | setGpr number value => exact .spared
  | setCondition unit condition => exact .spared

end Cpu

end R3000

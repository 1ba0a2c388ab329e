import R3000.Execution.Issue
import R3000.Proofs.LineUpdate

/-!
# Instructions that complete

An instruction that completes when issued did one of three things. It computed with the
registers and the sequencing of the program, or it operated the floating point unit, which
may drive the interrupt input of the unit, or it was a system control instruction and had
the permission to be one. Whatever else the core holds is as before. None of them reports
an exception, because completing and raising are different outcomes of being issued.
-/
namespace R3000

/-- The exceptions whose entering is reported by the notes, in order. -/
def entered (notes : List Note) : List Exception :=
  (events notes).filterMap fun
    | .exception exception _ _ => some exception
    | _ => none

@[simp] theorem events_append (first second : List Note) :
    events (first ++ second) = events first ++ events second := by
  simp [events, Sink.recorded]

@[simp] theorem entered_append (first second : List Note) :
    entered (first ++ second) = entered first ++ entered second := by
  simp [entered]

/-- The event tells neither of an exception or what led to it nor of another mode. -/
def Event.isRoutine : Event → Bool
  | exception _ _ _ | privilegeChange _ | addressError _ _ | tlbFault _ _ _ => false
  | tlbWrite _ _ _ | tlbProbe _ _ | fpuUnimplemented _ | interrupt _ _ => true

/-- The notes report routine events only. -/
def Routine (notes : List Note) : Prop := ∀ event ∈ events notes, event.isRoutine = true

namespace Routine

theorem of_silent {notes : List Note} (silent : events notes = []) : Routine notes := by
  intro event member
  rw [silent] at member
  cases member

theorem append {first second : List Note} (routine : Routine first) (later : Routine second) :
    Routine (first ++ second) := by
  intro event member
  rw [events_append] at member
  exact (List.mem_append.mp member).elim (routine event) (later event)

theorem entered {notes : List Note} (routine : Routine notes) : entered notes = [] := by
  apply List.filterMap_eq_nil_iff.mpr
  intro event member
  have calm := routine event member
  cases event with
  | exception exception epc vector => cases calm
  | _ => rfl

end Routine

/-! ### The interrupt line of a floating point unit -/

namespace FloatUnit

theorem irq_commit (unit : FloatUnit) (raised : Floating.Flags) (store : FloatUnit → FloatUnit)
    (kept : ∀ unit, (store unit).irq = unit.irq) : (unit.commit raised store).1.irq = unit.irq := by
  simp only [commit]
  split
  · exact kept unit
  · simp only
    split
    · rfl
    · exact kept _

/-- No operation of the unit moves it to another interrupt input. -/
theorem irq_execute (unit : FloatUnit) (op : FloatOp) : (unit.execute op).1.irq = unit.irq := by
  -- An operation commits its flags and stores its result in a register.
  have word (fd : RegNum) (bits : Word) (unit : FloatUnit) :
      (unit.setLow fd bits).irq = unit.irq := rfl
  have result (precision : Precision) (fd : RegNum) (bits : BitVec precision.format.width)
      (unit : FloatUnit) : (unit.setResult precision fd bits).irq = unit.irq := by
    cases precision <;> rfl
  cases op with
  | binary op precision fd fs ft => exact irq_commit _ _ _ (result precision fd _)
  | abs precision fd fs => exact irq_commit _ _ _ (result precision fd _)
  | neg precision fd fs => exact irq_commit _ _ _ (result precision fd _)
  | move precision fd fs => cases precision <;> rfl
  | widen fd fs => exact irq_commit _ _ _ (result .double fd _)
  | narrow fd fs => exact irq_commit _ _ _ (result .single fd _)
  | toWord precision fd fs => exact irq_commit _ _ _ (word fd _)
  | ofWord precision fd fs => exact irq_commit _ _ _ (result precision fd _)
  | compare precision predicate fs ft => rfl

theorem irq_setControl {unit next : FloatUnit} {reg : RegNum} {word : Word} {update : LineUpdate}
    (written : unit.setControl? reg word = some (next, update)) : next.irq = unit.irq := by
  simp only [setControl?] at written
  split at written <;> cases written <;> rfl

end FloatUnit

namespace Core

/-! ### Notes that report no exception -/

@[simp] theorem entered_modeChange (before after : Word) :
    entered (modeChange before after) = [] := by
  simp only [modeChange]
  split <;> rfl

@[simp] theorem entered_writeSystem (core : Core) (number : Nat) (value : Word) :
    entered (core.writeSystem number value).2 = [] := by
  simp only [writeSystem]
  split
  · simp only [writeStatus]
    split
    · rfl
    · exact entered_modeChange _ _
  · rfl

/-- An input that is let through is reported, which is routine. -/
theorem routine_setInput (core : Core) (line : Nat) (asserted : Bool) :
    Routine (core.setInput line asserted).2 := by
  unfold setInput
  split
  · exact .of_silent rfl
  · simp only
    split
    · split
      · rintro event (_ | ⟨_, ⟨⟩⟩)
        rfl
      · exact .of_silent rfl
    · exact .of_silent rfl

theorem routine_updateUnit (core : Core) (unit : FloatUnit) (update : LineUpdate) :
    Routine (core.updateUnit unit update).2 := by
  cases update with
  | none => exact .of_silent rfl
  | some level => exact routine_setInput _ _ _

/-! ### The ways to complete -/

/-- What a system control instruction that completes has made of the core. -/
inductive SystemCompletes (core : Core) (random : Fin 64) :
    SystemOp → Core → List Note → Prop where
  | moveFrom (rt source : RegNum) :
      SystemCompletes core random (.moveFrom rt source)
        (core.setReg rt (core.readSystem random source)) []
  | moveTo (rt target : RegNum) :
      SystemCompletes core random (.moveTo rt target) (core.writeSystem target (core.reg rt)).1
        (core.writeSystem target (core.reg rt)).2
  | branch (branch : UnitBranch) :
      SystemCompletes core random (.branch branch)
        (core.branchIf (core.condition 0 == branch.sense) branch.likely branch.offset) []
  | restoreMode :
      SystemCompletes core random .restoreMode core.restoreMode.1 core.restoreMode.2
  | readSlot (entry : TlbEntry) :
      SystemCompletes core random (.tlb .read)
        { core with system := core.system.putEntry entry } []
  | writeSlot {op : TlbOp} (slot : Fin 64) (byChance : Bool) :
      SystemCompletes core random (.tlb op) (core.writeSlot slot byChance).1
        (core.writeSlot slot byChance).2
  | probe (key : Word) (found : Option (Fin 64)) :
      SystemCompletes core random (.tlb .probe)
        { core with
          system := core.system.put SystemControl.indexReg (SystemControl.indexOf found) }
        [.event (.tlbProbe key (found.map Fin.val))]

/-- What an instruction that completes has made of the core. -/
inductive Completes (core : Core) (random : Fin 64) (word : Word) (instr : Instr) :
    Core → List Note → Prop where
  /-- It computed with the registers and the sequencing. -/
  | program (registers : Registers) (pc : Word) (sequencer : Sequencer) {notes : List Note}
      (silent : events notes = []) :
      Completes core random word instr { core with registers, pc, sequencer } notes
  /-- It operated the floating point unit. -/
  | unit {unit next : FloatUnit} (update : LineUpdate) (prior : List Note)
      (usable : core.unitUsable 1 = true) (present : core.fpu = some unit)
      (sameLine : next.irq = unit.irq) (settled : unit.Settles (next, update))
      (routine : Routine prior) :
      Completes core random word instr (core.updateUnit next update).1
        (prior ++ (core.updateUnit next update).2)
  /-- It was a system control instruction and had the permission to be one. -/
  | system {op : SystemOp} {next : Core} {notes : List Note} {extra : Nat}
      (decoded : instr = .system op)
      (permitted : core.userMode = false ∨ core.unitUsable 0 = true)
      (issued : core.issueSystem random word op = .retire next notes extra) :
      Completes core random word instr next notes

section

variable {core next : Core} {random : Fin 64} {word : Word} {instr : Instr}
  {notes : List Note} {extra : Nat}

theorem branchIf_eq (core : Core) (taken likely : Bool) (offset : Word) :
    ∃ pc sequencer, core.branchIf taken likely offset = { core with pc, sequencer } := by
  simp only [branchIf]
  split
  · exact ⟨_, _, rfl⟩
  · split <;> exact ⟨_, _, rfl⟩

theorem completes_branchIf (taken likely : Bool) (offset : Word) :
    core.Completes random word instr (core.branchIf taken likely offset) [] := by
  obtain ⟨pc, sequencer, branched⟩ := core.branchIf_eq taken likely offset
  rw [branched]
  exact .program _ _ _ rfl

theorem issueFloatOn_completes {unit : FloatUnit} {float : FloatInstr}
    (usable : core.unitUsable 1 = true) (present : core.fpu = some unit)
    (done : core.issueFloatOn unit word float = .retire next notes extra) :
    core.Completes random word instr next notes := by
  cases float with
  | moveFrom rt fs =>
    cases done
    exact .program _ _ _ rfl
  | moveTo rt fs =>
    cases done
    have sameLine : (unit.setHalf fs (core.reg rt)).irq = unit.irq := rfl
    exact .unit none [] usable present sameLine (FloatUnit.settles_of_same rfl) (.of_silent rfl)
  | controlFrom rt fs =>
    simp only [issueFloatOn] at done
    split at done <;> cases done <;> exact .program _ _ _ rfl
  | controlTo rt fs =>
    simp only [issueFloatOn] at done
    split at done
    next written =>
      cases done
      exact .unit _ [] usable present (FloatUnit.irq_setControl written)
        (FloatUnit.settles_setControl written) (.of_silent rfl)
    · cases done
      exact .program _ _ _ rfl
  | branch branch =>
    cases done
    exact completes_branchIf _ _ _
  -- A load or a store is issued as an access, so it has not completed.
  | load ft base offset => cases done
  | store ft base offset => cases done
  | operate op =>
    cases done
    exact .unit _ [] usable present (FloatUnit.irq_execute unit op)
      (FloatUnit.settles_execute unit op) (.of_silent rfl)
  | unimplemented =>
    cases done
    have sameLine : unit.unimplemented.irq = unit.irq := rfl
    have routine : Routine [.message (.fpuUnimplemented word core.pc),
        .event (.fpuUnimplemented word)] := by
      rintro event (_ | ⟨_, ⟨⟩⟩)
      rfl
    exact .unit (some true) _ usable present sameLine (FloatUnit.settles_unimplemented unit) routine

theorem issueFloat_completes {float : FloatInstr}
    (done : core.issueFloat word float = .retire next notes extra) :
    core.Completes random word instr next notes := by
  simp only [issueFloat] at done
  split at done
  · cases done
  next usable =>
    split at done
    next unit present => exact issueFloatOn_completes (by simpa using usable) present done
    · cases done
      exact .program _ _ _ rfl

theorem issueForeign_completes {unit : Fin 4} {branch : Option UnitBranch}
    (done : core.issueForeign word unit branch = .retire next notes extra) :
    core.Completes random word instr next notes := by
  simp only [issueForeign] at done
  split at done
  · cases done
  · split at done
    · cases done
      exact completes_branchIf _ _ _
    · cases done

theorem issueDivide_completes {signed : Bool} {dividend divisor : Word}
    (done : core.issueDivide signed dividend divisor = .retire next notes extra) :
    core.Completes random word instr next notes := by
  simp only [issueDivide] at done
  split at done <;> cases done <;> exact .program _ _ _ rfl

theorem issueSystem_completes {op : SystemOp}
    (issued : core.issueSystem random word op = .retire next notes extra) :
    core.SystemCompletes random op next notes := by
  simp only [issueSystem] at issued
  split at issued
  · cases issued
  · cases op with
    | moveFrom rt source => cases issued; exact .moveFrom rt source
    | moveTo rt target => cases issued; exact .moveTo rt target
    | branch branch => cases issued; exact .branch branch
    | restoreMode => cases issued; exact .restoreMode
    | reserved => cases issued
    | tlb op =>
      simp only at issued
      split at issued
      · cases op with
        | read => cases issued; exact .readSlot _
        | writeIndexed => cases issued; exact .writeSlot _ _
        | writeRandom => cases issued; exact .writeSlot _ _
        | probe => cases issued; exact .probe _ _
      · cases issued

/-- An instruction that completes does so in one of the three ways. -/
theorem issueInstr_completes
    (done : core.issueInstr random word instr = .retire next notes extra) :
    core.Completes random word instr next notes := by
  cases instr with
  | checked op rd rs rt =>
    simp only [issueInstr] at done
    split at done <;> cases done
    exact .program _ _ _ rfl
  | checkedImmediate rt rs operand =>
    simp only [issueInstr] at done
    split at done <;> cases done
    exact .program _ _ _ rfl
  | divide signed rs rt => exact issueDivide_completes done
  | jump link target =>
    cases done
    split <;> exact .program _ _ _ rfl
  | jumpRegister link rs =>
    cases done
    cases link <;> exact .program _ _ _ rfl
  | branch condition likely link offset =>
    cases done
    obtain ⟨pc, sequencer, branched⟩ :=
      core.branchIf_eq (condition.holds core.registers) likely offset
    rw [branched]
    split <;> exact .program _ _ _ rfl
  | load op rt base offset => cases done
  | store op rt base offset => cases done
  | syscall => cases done
  | breakpoint => cases done
  | reserved => cases done
  | system op =>
    -- Without the permission the instruction would have raised a trap.
    have permitted : core.userMode = false ∨ core.unitUsable 0 = true := by
      cases user : core.userMode
      · exact .inl rfl
      · cases usable : core.unitUsable 0
        · simp [issueInstr, issueSystem, user, usable] at done
        · exact .inr rfl
    exact .system rfl permitted done
  | float float => exact issueFloat_completes done
  | foreign unit branch => exact issueForeign_completes done
  | _ =>
    -- The others put a result into a register.
    cases done
    exact .program _ _ _ rfl

/-! ### What completing leaves alone -/

theorem entered_issueSystem {op : SystemOp}
    (issued : core.issueSystem random word op = .retire next notes extra) :
    entered notes = [] := by
  cases issueSystem_completes issued with
  | moveTo rt target => exact entered_writeSystem _ _ _
  | restoreMode => exact entered_modeChange _ _
  | _ => rfl

theorem Completes.entered (completes : core.Completes random word instr next notes) :
    R3000.entered notes = [] := by
  cases completes with
  | program registers pc sequencer silent => exact (Routine.of_silent silent).entered
  | unit update prior usable present sameLine settled routine =>
    exact (routine.append (routine_updateUnit _ _ _)).entered
  | system decoded permitted issued => exact entered_issueSystem issued

@[simp] theorem mmu_setInput (core : Core) (line : Nat) (asserted : Bool) :
    (core.setInput line asserted).1.mmu = core.mmu := by
  unfold setInput
  split
  · rfl
  · simp only
    split <;> rfl

/-- Driving an input changes its own bit of the cause only. -/
theorem system_setInput (core : Core) (line : Nat) (asserted : Bool) :
    (∀ reg ≠ SystemControl.causeReg,
        (core.setInput line asserted).1.system.read reg = core.system.read reg) ∧
      (core.setInput line asserted).1.system.cause &&& ~~~Cause.inputBit line =
        core.system.cause &&& ~~~Cause.inputBit line := by
  simp only [setInput]
  split
  · exact ⟨fun _ _ => rfl, rfl⟩
  · cases asserted with
    | true =>
      constructor
      · intro reg other
        simp [SystemControl.putCause, SystemControl.read_put, other]
      · have added : (core.system.cause ||| Cause.inputBit line) &&& ~~~Cause.inputBit line =
            core.system.cause &&& ~~~Cause.inputBit line := by
          rw [BitVec.and_or_distrib_right, BitVec.and_not_self]
          simp
        simpa [SystemControl.putCause, SystemControl.cause, SystemControl.read_put] using added
    | false =>
      constructor
      · intro reg other
        simp [SystemControl.putCause, SystemControl.read_put, other]
      · have removed : core.system.cause &&& ~~~Cause.inputBit line &&& ~~~Cause.inputBit line =
            core.system.cause &&& ~~~Cause.inputBit line := by
          rw [BitVec.and_assoc, BitVec.and_self]
        simpa [SystemControl.putCause, SystemControl.cause, SystemControl.read_put] using removed

@[simp] theorem mmu_writeSystem (core : Core) (number : Nat) (value : Word) :
    (core.writeSystem number value).1.mmu = core.mmu := by
  simp only [writeSystem]
  split <;> rfl

@[simp] theorem mmu_updateUnit (core : Core) (unit : FloatUnit) (update : LineUpdate) :
    (core.updateUnit unit update).1.mmu = core.mmu := by
  cases update with
  | none => rfl
  | some level => exact mmu_setInput _ _ _

/-- Of the system control instructions, only those that write a slot change the mapping
hardware. They store the entry registers in it. -/
theorem mmu_issueSystem {op : SystemOp}
    (issued : core.issueSystem random word op = .retire next notes extra) :
    next.mmu = core.mmu ∨
      ∃ slot, next.mmu = core.mmu.mapBuffer (·.setEntry slot core.system.entry) := by
  cases issueSystem_completes issued with
  | moveTo rt target => exact .inl (mmu_writeSystem _ _ _)
  | branch branch =>
    obtain ⟨pc, sequencer, branched⟩ := core.branchIf_eq
      (core.condition 0 == branch.sense) branch.likely branch.offset
    rw [branched]
    exact .inl rfl
  | writeSlot slot random => exact .inr ⟨slot, rfl⟩
  | _ => exact .inl rfl

/-- An instruction that completes stores at most one entry, that of the entry registers. -/
theorem Completes.mmu (completes : core.Completes random word instr next notes) :
    next.mmu = core.mmu ∨
      ∃ slot, next.mmu = core.mmu.mapBuffer (·.setEntry slot core.system.entry) := by
  cases completes with
  | program registers pc sequencer silent => exact .inl rfl
  | unit update prior usable present sameLine settled routine =>
    exact .inl (mmu_updateUnit _ _ _)
  | system decoded permitted issued => exact mmu_issueSystem issued

end

end Core

end R3000

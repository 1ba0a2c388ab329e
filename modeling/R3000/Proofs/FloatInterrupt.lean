import R3000.Proofs.Entering
import R3000.Proofs.Reachability
import R3000.Proofs.Trapping
import R3000.Ram

/-!
# The interrupt of the floating point unit

As long as nobody else drives its input, the unit keeps it as its control register asks for.
The operations of the unit bring the input along with the register. Programs cannot write the
inputs, a handler is entered with them as they are, and everything else that a program or a
host does concerns neither the input nor the register.
-/
namespace R3000

namespace Core

/-- An interrupt input is seen asserted. -/
def asserted (core : Core) (line : Nat) : Bool := hasAny core.system.cause (Cause.inputBit line)

theorem asserted_of_clear {core : Core} (clear : core.system.cause = 0) (line : Nat) :
    core.asserted line = false := by
  have none : (0 : Word) &&& Cause.inputBit line = 0 := BitVec.zero_and
  simp only [asserted, clear, hasAny, none]
  rfl

/-- There is a unit on a line, and its input is asserted exactly when the unit asks for it. -/
def Mirrors (core : Core) (line : Nat) : Prop :=
  ∃ unit, core.fpu = some unit ∧ unit.irq = line ∧
    core.asserted line = FloatControl.pending unit.control31

/-- What this depends on: the control register and the line of the unit, and the inputs. -/
def lines (core : Core) : Option (Word × Nat) × Word :=
  (core.fpu.map fun unit => (unit.control31, unit.irq), core.system.cause &&& Cause.ipex)

theorem inputBit_within : ∀ line < 6, Cause.ipex &&& Cause.inputBit line = Cause.inputBit line := by
  decide

theorem Mirrors.of_lines {core after : Core} {line : Nat} (mirrors : core.Mirrors line)
    (wired : line < 6) (same : after.lines = core.lines) : after.Mirrors line := by
  obtain ⟨unit, present, on, shown⟩ := mirrors
  obtain ⟨units, inputs⟩ := Prod.mk.inj same
  rw [present] at units
  obtain ⟨other, found, equal⟩ := Option.map_eq_some_iff.mp units
  obtain ⟨sameControl, sameLine⟩ := Prod.mk.inj equal
  have unmoved : after.asserted line = core.asserted line :=
    hasAny_of_subset inputs (inputBit_within line wired)
  refine ⟨other, found, sameLine.trans on, ?_⟩
  rw [unmoved, shown, sameControl]

/-! ### What concerns neither the unit nor its input -/

theorem lines_of_forgetOrders {core other : Core}
    (same : core.forgetOrders = other.forgetOrders) : core.lines = other.lines := by
  rw [eq_of_forgetOrders same]
  rfl

/-- The system registers matter by the inputs in the cause only. -/
theorem lines_of_inputs {core : Core} {system : SystemControl}
    (kept : system.cause &&& Cause.ipex = core.system.cause &&& Cause.ipex) :
    { core with system }.lines = core.lines := congrArg (Prod.mk _) kept

theorem lines_put (core : Core) {reg : RegNum} (other : reg ≠ SystemControl.causeReg)
    (value : Word) : { core with system := core.system.put reg value }.lines = core.lines := by
  have kept : (core.system.put reg value).cause = core.system.cause := by
    simp only [SystemControl.cause, SystemControl.read_put, if_neg other.symm]
  exact lines_of_inputs (by rw [kept])

theorem lines_putEntry (core : Core) (entry : TlbEntry) :
    { core with system := core.system.putEntry entry }.lines = core.lines := by
  have kept : (core.system.putEntry entry).cause = core.system.cause := by
    simp +decide [SystemControl.putEntry, SystemControl.cause, SystemControl.read_put]
  exact lines_of_inputs (by rw [kept])

theorem lines_writeSystem (core : Core) (number : Nat) (value : Word) :
    (core.writeSystem number value).1.lines = core.lines := by
  simp only [writeSystem]
  split
  · exact core.lines_put (by decide) value
  · by_cases cause : Registers.select number = SystemControl.causeReg
    · -- The inputs are not among the bits of the cause that can be written.
      apply lines_of_inputs
      rw [cause]
      simp only [SystemControl.cause, SystemControl.write, SystemControl.read_put, if_true]
      exact replaceBits_inside _ _ _
    · exact core.lines_put cause _

theorem lines_receive (core : Core) (destination : Destination) {width : Width}
    (value : BitVec width.bits) : (core.receive destination value).lines = core.lines := by
  cases destination with
  | float ft =>
    simp only [receive, lines, Option.map_map]
    rfl
  | _ => rfl

/-- The handler finds the inputs as they were. -/
theorem lines_enter (core : Core) (trap : Trap) : (core.enter trap).1.lines = core.lines := by
  have within : (0x0000ff00 : Word) &&& Cause.ipex = Cause.ipex := by decide
  have kept := and_of_subset (causeAfter_pending core trap.exception) within
  rw [← cause_enter core trap] at kept
  exact congrArg (Prod.mk _) kept

theorem lines_issueSystem {core next : Core} {random : Fin 64} {word : Word} {op : SystemOp}
    {notes : List Note} {extra : Nat}
    (issued : core.issueSystem random word op = .retire next notes extra) :
    next.lines = core.lines := by
  cases issueSystem_completes issued with
  | moveTo rt target => exact lines_writeSystem _ _ _
  | branch branch =>
    obtain ⟨pc, sequencer, branched⟩ := core.branchIf_eq
      (core.condition 0 == branch.sense) branch.likely branch.offset
    rw [branched]
    rfl
  | restoreMode => exact core.lines_put (by decide) _
  | readSlot entry => exact core.lines_putEntry entry
  | probe key found => exact core.lines_put (by decide) _
  | moveFrom rt source => rfl
  | writeSlot slot byChance => rfl

/-! ### Driving the input -/

theorem fpu_setInput (core : Core) (line : Nat) (level : Bool) :
    (core.setInput line level).1.fpu = core.fpu := by
  simp only [setInput]
  split
  · rfl
  · split <;> rfl

/-- An input is seen as it is driven. -/
theorem asserted_setInput (core : Core) {line : Nat} (wired : line < 6) (level : Bool) :
    (core.setInput line level).1.asserted line = level := by
  have inRange : ¬6 ≤ line := by omega
  have nonzero : ∀ line < 6, Cause.inputBit line ≠ 0 := by decide
  simp only [asserted, hasAny, setInput, if_neg inRange]
  cases level with
  | true =>
    have absorbed : (core.system.cause ||| Cause.inputBit line) &&& Cause.inputBit line =
        Cause.inputBit line := by
      apply BitVec.eq_of_getLsbD_eq
      intro index _
      rw [BitVec.getLsbD_and, BitVec.getLsbD_or]
      cases core.system.cause.getLsbD index <;> simp
    have added : (core.system.cause ||| Cause.inputBit line) &&& Cause.inputBit line ≠ 0 := by
      rw [absorbed]
      exact nonzero line wired
    simpa [SystemControl.putCause, SystemControl.cause, SystemControl.read_put] using added
  | false =>
    have removed : core.system.cause &&& ~~~Cause.inputBit line &&& Cause.inputBit line = 0 := by
      rw [BitVec.and_assoc, BitVec.and_comm (~~~Cause.inputBit line), BitVec.and_not_self]
      simp
    simpa [SystemControl.putCause, SystemControl.cause, SystemControl.read_put] using removed

/-- What changes the bit of one input only leaves the others as they are. -/
theorem hasAny_inputBit_of_ne {cause before : Word} {line other : Nat} (wired : line < 6)
    (known : other < 6) (apart : line ≠ other)
    (kept : cause &&& ~~~Cause.inputBit other = before &&& ~~~Cause.inputBit other) :
    hasAny cause (Cause.inputBit line) = hasAny before (Cause.inputBit line) := by
  have within : ∀ other < 6, ∀ line < 6, line ≠ other →
      ~~~Cause.inputBit other &&& Cause.inputBit line = Cause.inputBit line := by
    decide
  exact hasAny_of_subset kept (within other known line wired apart)

theorem asserted_setInput_of_ne (core : Core) {line other : Nat} (wired : line < 6)
    (apart : line ≠ other) (level : Bool) :
    (core.setInput other level).1.asserted line = core.asserted line := by
  by_cases ignored : 6 ≤ other
  · simp only [setInput, if_pos ignored]
  · obtain ⟨-, kept⟩ := system_setInput core other level
    exact hasAny_inputBit_of_ne wired (Nat.lt_of_not_le ignored) apart kept

/-- Putting back the unit after an operation drives its input as the operation has settled. -/
theorem mirrors_updateUnit {core : Core} {unit next : FloatUnit} {update : LineUpdate}
    (wired : unit.irq < 6) (sameLine : next.irq = unit.irq)
    (settled : unit.Settles (next, update))
    (shown : core.asserted unit.irq = FloatControl.pending unit.control31) :
    (core.updateUnit next update).1.Mirrors unit.irq := by
  cases update with
  -- The input is left alone because the register asks for what it asked for before.
  | none => exact ⟨next, rfl, sameLine, shown.trans settled⟩
  | some level =>
    simp only [updateUnit, sameLine]
    refine ⟨next, fpu_setInput _ _ _, sameLine, ?_⟩
    rw [asserted_setInput _ wired]
    exact settled

theorem Completes.mirrors {core next : Core} {random : Fin 64} {word : Word} {instr : Instr}
    {notes : List Note} {line : Nat} (completes : core.Completes random word instr next notes)
    (wired : line < 6) (mirrors : core.Mirrors line) : next.Mirrors line := by
  -- Only an operation of the unit changes its register, and that settles the input as well.
  cases completes with
  | program registers pc sequencer silent => exact mirrors.of_lines wired rfl
  | unit update prior usable present sameLine settled routine =>
    obtain ⟨unit, found, rfl, shown⟩ := mirrors
    cases present.symm.trans found
    exact mirrors_updateUnit wired sameLine settled shown
  | system decoded permitted issued => exact mirrors.of_lines wired (lines_issueSystem issued)

end Core

/-! ### Steps and runs -/

/-- Other operations of the host than a reset and than driving the input of a line. -/
def Operation.sparesInput (line : Nat) : Operation → Bool
  | reset => false
  | setInput other _ => other != line
  | _ => true

namespace Cpu

section

variable {β : Type} [Bus β] {cpu : Cpu} {line : Nat}

theorem execute_mirrors (wired : line < 6) (mirrors : cpu.core.Mirrors line) (bus : β)
    (word : Word) : (cpu.execute bus word).cpu.core.Mirrors line := by
  cases raised : cpu.executeTrap bus word with
  | some trap =>
    obtain ⟨memory, trapped⟩ := execute_of_trap raised
    have marked := Core.lines_of_forgetOrders (Core.forgetOrders_marked cpu.core trap)
    rw [trapped]
    exact mirrors.of_lines wired ((Core.lines_enter _ trap).trans marked)
  | none =>
    rcases core_execute_of_none raised with ⟨next, notes, extra, issued, executed⟩ |
      ⟨load, value, -, executed⟩ | ⟨store, -, executed⟩
    · rw [executed]
      exact (Core.issueInstr_completes issued).mirrors wired mirrors
    · have marked := Core.lines_of_forgetOrders (Core.forgetOrders_mark cpu.core load.demand)
      rw [executed]
      exact mirrors.of_lines wired ((Core.lines_receive _ _ _).trans marked)
    · have marked := Core.lines_of_forgetOrders (Core.forgetOrders_mark cpu.core store.demand)
      rw [executed]
      exact mirrors.of_lines wired marked

theorem step_mirrors (wired : line < 6) (mirrors : cpu.core.Mirrors line) (bus : β) :
    (cpu.step bus).cpu.core.Mirrors line := by
  cases raised : cpu.stepTrap bus with
  | some trap =>
    obtain ⟨core, memory, same, stepped⟩ := step_of_trap raised
    have handled : (core.enter trap).1.lines = cpu.core.lines :=
      (Core.lines_enter core trap).trans (Core.lines_of_forgetOrders same)
    rw [stepped]
    exact mirrors.of_lines wired handled
  | none =>
    obtain ⟨word, memory, -, stepped⟩ := step_of_none raised
    have marked := Core.lines_of_forgetOrders (Core.forgetOrders_mark cpu.core cpu.core.fetchDemand)
    have fetched : ((cpu.tick 1).mark cpu.core.fetchDemand).core.Mirrors line :=
      mirrors.of_lines wired marked
    rw [stepped]
    -- Going on to the next instruction does not concern the unit.
    exact (execute_mirrors wired fetched memory word).of_lines wired rfl

theorem operate_mirrors (wired : line < 6) (mirrors : cpu.core.Mirrors line) (bus : β)
    {operation : Operation} (spares : operation.sparesInput line = true) :
    (cpu.operate bus operation).cpu.core.Mirrors line := by
  cases operation with
  | step => exact step_mirrors wired mirrors bus
  | execute word => exact execute_mirrors wired mirrors bus word
  | reset => cases spares
  | setInput other level =>
    have apart : line ≠ other := by
      rintro rfl
      simp [Operation.sparesInput] at spares
    obtain ⟨unit, present, on, shown⟩ := mirrors
    refine ⟨unit, ?_, on, ?_⟩
    · exact (Core.fpu_setInput cpu.core other level).trans present
    · exact (Core.asserted_setInput_of_ne cpu.core wired apart level).trans shown
  | setSystemReg number value =>
    exact mirrors.of_lines wired (Core.lines_writeSystem cpu.core number value)
  | setFpr number value =>
    have same : (cpu.setFpr number value).core.lines = cpu.core.lines := by
      simp only [setFpr, Core.lines, Option.map_map]
      rfl
    exact mirrors.of_lines wired same
  | setPc pc => exact mirrors.of_lines wired rfl
  | setGpr number value => exact mirrors.of_lines wired rfl
  | setCondition unit condition => exact mirrors.of_lines wired rfl

end

theorem cause_resetSystem (core : Core) : core.resetSystem.cause = 0 := by
  simp only [Core.resetSystem]
  split <;> split <;>
    simp +decide [SystemControl.resetBusRegisters, SystemControl.putCause,
      SystemControl.putStatus, SystemControl.cause, SystemControl.read_put]

/-- A processor is built with no input asserted and no exception in the control register. -/
theorem build_mirrors {config : Config} {unit : FloatUnit}
    (present : (Cpu.build config).1.core.fpu = some unit) :
    (Cpu.build config).1.core.Mirrors unit.irq := by
  have quiet : (Cpu.build config).1.core.system.cause = 0 := cause_resetSystem _
  have cleared : unit.control31 = 0 := by
    obtain ⟨attachment, -, rfl⟩ := Option.map_eq_some_iff.mp present
    rfl
  refine ⟨unit, present, rfl, ?_⟩
  rw [Core.asserted_of_clear quiet, cleared]
  rfl

/-- The interrupt input of the floating point unit mirrors its control register. On any run of
a processor that was built with a unit on one of the six inputs, as long as the host neither
resets it nor drives that input, the input is pending exactly when the register has the cause
of an unimplemented operation or a cause whose enable bit is set. -/
theorem floatInterrupt_mirrored {config : Config} {unit : FloatUnit} {cpu : Cpu}
    (present : (Cpu.build config).1.core.fpu = some unit) (wired : unit.irq < 6)
    (run : Leads (·.sparesInput unit.irq = true) (Cpu.build config).1 cpu) :
    ∃ control, cpu.floatControl = some control ∧
      (hasAny cpu.core.system.cause (0x400 <<< unit.irq) = true ↔
        hasAny control 0x20000 = true ∨
          (control &&& 0x1f000) >>> 5 &&& (control &&& 0xf80) ≠ 0) := by
  have mirrors : cpu.core.Mirrors unit.irq := by
    apply run.keeps (P := fun cpu => cpu.core.Mirrors unit.irq)
    · intro β _ cpu bus operation spares before
      exact operate_mirrors wired before bus spares
    · exact build_mirrors present
  obtain ⟨last, found, -, shown⟩ := mirrors
  refine ⟨last.control31, by rw [floatControl, found]; rfl, ?_⟩
  have input : hasAny cpu.core.system.cause (0x400 <<< unit.irq) =
      FloatControl.pending last.control31 := shown
  rw [input]
  simp only [FloatControl.pending, hasAny, Bool.or_eq_true, bne_iff_ne]
  rfl

/-- The exception of invalid operations is enabled, and zero divided by zero. Then the host
writes the cause. -/
def invalidDivision : List Operation :=
  [.setSystemReg 12 0x20000000, .setGpr 8 0x800, .execute 0x44c8f800, .execute 0x46000003,
    .setSystemReg 13 0]

def noMemory : Ram := Ram.zeroed 0 0 .big

def afterDivision : Cpu := (Cpu.build (.ofModel .r3081)).1.operateAll noMemory invalidDivision

/-- The unit asks for an interrupt, and writing the cause does not take it away. -/
theorem floatInterrupt_mirrored_division :
    afterDivision.floatControl = some 0x10840 ∧
      hasAny afterDivision.core.system.cause 0x2000 = true := by
  have present : (Cpu.build (.ofModel .r3081)).1.core.fpu =
      some (.ofAttachment .software (.ofRevision 0x0300)) := rfl
  have run : Leads (·.sparesInput 3 = true) (Cpu.build (.ofModel .r3081)).1 afterDivision :=
    Leads.refl.operateAll noMemory (by decide)
  have register : afterDivision.floatControl = some 0x10840 := by decide +kernel
  obtain ⟨control, same, mirrored⟩ := floatInterrupt_mirrored present (by decide) run
  cases same.symm.trans register
  exact ⟨register, mirrored.mpr (.inr (by decide))⟩

end Cpu

end R3000

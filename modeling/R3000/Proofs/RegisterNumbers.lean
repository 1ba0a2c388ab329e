import R3000.Proofs.BusDiscipline
import R3000.Proofs.PrivilegeReports

/-!
# Register numbers of the host

A host may pass any number for a register, and its low bits select one. Two registers have rules of
their own: register zero keeps its value, and a write to the status register chooses the memory for
data and reports a change of mode. These two are recognised by their own numbers, 0 and 12. So a
host that uses no other number for them cannot break the rules, whatever numbers and values it
passes otherwise.
-/
namespace R3000

/-- Register zero is written under its own number only. -/
def Operation.namesZero : Operation → Bool
  | setGpr number _ => number == 0 || number % 32 != 0
  | _ => true

/-- The operation writes a general or a system register for the host. -/
def Operation.writesRegister : Operation → Bool
  | setGpr _ _ | setSystemReg _ _ => true
  | _ => false

theorem Registers.read_zero_writeNumbered {number : Nat} (registers : Registers) (value : Word)
    (named : number = 0 ∨ number % 32 ≠ 0) :
    (registers.writeNumbered number value).read 0 = registers.read 0 := by
  simp only [writeNumbered]
  split
  · rfl
  next beyond =>
    have other : (select number).val ≠ 0 := named.resolve_left beyond
    simp [read, other]

namespace Core

/-! ### Register zero in a program -/

@[simp] theorem registers_writeSystem (core : Core) (number : Nat) (value : Word) :
    (core.writeSystem number value).1.registers = core.registers := by
  simp only [writeSystem]
  split <;> rfl

@[simp] theorem registers_setInput (core : Core) (line : Nat) (asserted : Bool) :
    (core.setInput line asserted).1.registers = core.registers := by
  simp only [setInput]
  split
  · rfl
  · split <;> rfl

@[simp] theorem registers_updateUnit (core : Core) (unit : FloatUnit) (update : LineUpdate) :
    (core.updateUnit unit update).1.registers = core.registers := by
  cases update with
  | none => rfl
  | some level => exact registers_setInput _ _ _

@[simp] theorem registers_branchIf (core : Core) (taken likely : Bool) (offset : Word) :
    (core.branchIf taken likely offset).registers = core.registers := by
  obtain ⟨pc, sequencer, branched⟩ := core.branchIf_eq taken likely offset
  rw [branched]

/-- Programs name registers by their numbers, so register zero is spared. -/
@[simp] theorem reg_zero_setReg (core : Core) (reg : RegNum) (value : Word) :
    (core.setReg reg value).reg 0 = core.reg 0 := Registers.read_write_zero _ _ _

theorem reg_zero_of_registers {core other : Core} (same : core.registers = other.registers) :
    core.reg 0 = other.reg 0 := congrArg (·.read 0) same

@[simp] theorem reg_zero_receive (core : Core) (destination : Destination) {width : Width}
    (value : BitVec width.bits) : (core.receive destination value).reg 0 = core.reg 0 := by
  cases destination with
  | float ft => rfl
  | _ => exact reg_zero_setReg _ _ _

section

variable {core next : Core} {random : Fin 64} {word : Word} {notes : List Note} {extra : Nat}

theorem reg_zero_issueSystem {op : SystemOp}
    (done : core.issueSystem random word op = .retire next notes extra) :
    next.reg 0 = core.reg 0 := by
  -- Only a move from a system register writes a general one.
  cases issueSystem_completes done with
  | moveFrom rt source => exact reg_zero_setReg _ _ _
  | moveTo rt target => exact reg_zero_of_registers (registers_writeSystem _ _ _)
  | branch branch => exact reg_zero_of_registers (registers_branchIf _ _ _ _)
  | _ => rfl

theorem reg_zero_issueFloat {float : FloatInstr}
    (done : core.issueFloat word float = .retire next notes extra) : next.reg 0 = core.reg 0 := by
  simp only [issueFloat] at done
  split at done
  · cases done
  · split at done
    -- A unit that is there executes the instruction; one that is missing does nothing.
    · cases float with
      | moveFrom rt fs => cases done; exact reg_zero_setReg _ _ _
      | moveTo rt fs => cases done; rfl
      | controlFrom rt fs =>
        simp only [issueFloatOn] at done
        split at done <;> cases done
        · exact reg_zero_setReg _ _ _
        · rfl
      | controlTo rt fs =>
        simp only [issueFloatOn] at done
        split at done <;> cases done
        · exact reg_zero_of_registers (registers_updateUnit _ _ _)
        · rfl
      | branch branch => cases done; exact reg_zero_of_registers (registers_branchIf _ _ _ _)
      | load ft base offset | store ft base offset => cases done
      | operate op => cases done; exact reg_zero_of_registers (registers_updateUnit _ _ _)
      | unimplemented =>
        cases done
        exact reg_zero_of_registers (registers_updateUnit core _ (some true))
    · cases done
      rfl

theorem reg_zero_issueForeign {unit : Fin 4} {branch : Option UnitBranch}
    (done : core.issueForeign word unit branch = .retire next notes extra) :
    next.reg 0 = core.reg 0 := by
  simp only [issueForeign] at done
  split at done
  · cases done
  · split at done <;> cases done
    exact reg_zero_of_registers (registers_branchIf _ _ _ _)

/-- An instruction that completes has not written register zero. -/
theorem reg_zero_issueInstr {instr : Instr}
    (done : core.issueInstr random word instr = .retire next notes extra) :
    next.reg 0 = core.reg 0 := by
  cases instr with
  | checked op rd rs rt =>
    simp only [issueInstr] at done
    split at done <;> cases done
    exact reg_zero_setReg _ _ _
  | checkedImmediate rt rs operand =>
    simp only [issueInstr] at done
    split at done <;> cases done
    exact reg_zero_setReg _ _ _
  | multiply signed rd rs rt | multiplyAdd signed rd rs rt =>
    cases done
    exact Registers.read_write_zero _ _ _
  | divide signed rs rt =>
    simp only [issueInstr, issueDivide] at done
    split at done <;> cases done <;> rfl
  | moveToHi rs | moveToLo rs | nothing => cases done; rfl
  | jump link target =>
    cases done
    split
    · exact reg_zero_setReg _ _ _
    · rfl
  | jumpRegister link rs =>
    cases done
    cases link with
    | some rd => exact reg_zero_setReg _ _ _
    | none => rfl
  | branch condition likely link offset =>
    cases done
    have branched := reg_zero_of_registers
      (core.registers_branchIf (condition.holds core.registers) likely offset)
    -- The link goes to a register with another number.
    split
    · exact (reg_zero_setReg _ _ _).trans branched
    · exact branched
  | load op rt base offset | store op rt base offset => cases done
  | syscall | breakpoint | reserved => cases done
  | system op => exact reg_zero_issueSystem done
  | float float => exact reg_zero_issueFloat done
  | foreign unit branch => exact reg_zero_issueForeign done
  | _ =>
    cases done
    exact reg_zero_setReg _ _ _

end

theorem reg_zero_of_forgetOrders {core other : Core}
    (same : core.forgetOrders = other.forgetOrders) : core.reg 0 = other.reg 0 := by
  rw [eq_of_forgetOrders same]
  rfl

end Core

namespace Cpu

section

variable {β : Type} [Bus β]

theorem reg_zero_execute (cpu : Cpu) (bus : β) (word : Word) :
    (cpu.execute bus word).cpu.core.reg 0 = cpu.core.reg 0 := by
  cases raised : cpu.executeTrap bus word with
  | some trap =>
    obtain ⟨memory, trapped⟩ := execute_of_trap raised
    have marked := Core.reg_zero_of_forgetOrders (Core.forgetOrders_marked cpu.core trap)
    rw [trapped]
    -- The handler finds the registers as the instruction found them.
    exact marked
  | none =>
    -- A load writes its register after the access, by number as well.
    rcases core_execute_of_none raised with ⟨next, notes, extra, issued, executed⟩ |
      ⟨load, value, -, executed⟩ | ⟨store, -, executed⟩
    · rw [executed]
      exact Core.reg_zero_issueInstr issued
    · rw [executed, Core.reg_zero_receive]
      exact Core.reg_zero_of_forgetOrders (Core.forgetOrders_mark _ _)
    · rw [executed]
      exact Core.reg_zero_of_forgetOrders (Core.forgetOrders_mark _ _)

theorem reg_zero_step (cpu : Cpu) (bus : β) :
    (cpu.step bus).cpu.core.reg 0 = cpu.core.reg 0 := by
  cases raised : cpu.stepTrap bus with
  | some trap =>
    obtain ⟨core, memory, same, stepped⟩ := step_of_trap raised
    have kept := Core.reg_zero_of_forgetOrders same
    rw [stepped]
    exact kept
  | none =>
    obtain ⟨word, memory, -, stepped⟩ := step_of_none raised
    have executed := reg_zero_execute ((cpu.tick 1).mark cpu.core.fetchDemand) memory word
    have marked := Core.reg_zero_of_forgetOrders
      (Core.forgetOrders_mark cpu.core cpu.core.fetchDemand)
    rw [stepped]
    exact executed.trans marked

/-- No operation of a host writes register zero, unless it passes an alias of its number. -/
theorem reg_zero_operate (cpu : Cpu) (bus : β) {operation : Operation}
    (names : operation.namesZero = true) :
    (cpu.operate bus operation).cpu.core.reg 0 = cpu.core.reg 0 := by
  cases operation with
  | step => exact cpu.reg_zero_step bus
  | execute word => exact cpu.reg_zero_execute bus word
  | setGpr number value =>
    have named : number = 0 ∨ number % 32 ≠ 0 := by simpa [Operation.namesZero] using names
    exact Registers.read_zero_writeNumbered _ value named
  | setSystemReg number value =>
    exact Core.reg_zero_of_registers (Core.registers_writeSystem _ number value)
  | setInput line level =>
    exact Core.reg_zero_of_registers (Core.registers_setInput _ line level)
  | reset => rfl
  | setPc pc => rfl
  | setFpr number value => rfl
  | setCondition unit condition => rfl

end

theorem ReachableBy.reg_zero {cpu : Cpu} (reached : cpu.ReachableBy (·.namesZero = true)) :
    cpu.core.reg 0 = 0 := by
  obtain ⟨config, run⟩ := reached
  apply run.keeps (P := fun cpu => cpu.core.reg 0 = 0)
  · intro β _ cpu bus operation names zero
    exact (reg_zero_operate cpu bus names).trans zero
  · rfl

/-! ### Calls of the host -/

section

variable {cpu : Cpu} {β : Type} [Bus β] {bus : β} {calls : List Operation}

/-- Writing registers for the host does not touch the sequencing. -/
theorem sequencer_operateAll (writes : ∀ call ∈ calls, call.writesRegister = true) :
    (cpu.operateAll bus calls).core.sequencer = cpu.core.sequencer := by
  have run : Leads (·.writesRegister = true) cpu (cpu.operateAll bus calls) :=
    Leads.refl.operateAll bus writes
  apply run.keeps (P := fun after => after.core.sequencer = cpu.core.sequencer)
  · intro β _ before bus call writes same
    cases call with
    | setGpr number value => exact same
    | setSystemReg number value => exact (before.core.sequencer_writeSystem number value).trans same
    | _ => cases writes
  · rfl

/-- While an exception is being taken, a host that writes registers gets no report of the mode. -/
theorem modeReports_of_exception {call : Operation} (writes : call.writesRegister = true)
    (taking : cpu.core.sequencer.state = .exception) :
    modeReports (cpu.operate bus call).notes = [] := by
  cases call with
  | setGpr number value => rfl
  | setSystemReg number value =>
    change modeReports (cpu.core.writeSystem number value).2 = []
    simp only [Core.writeSystem]
    split
    · simp only [Core.writeStatus, if_pos taking]
      rfl
    · rfl
  | _ => cases writes

/-- Register numbers of the host keep the rules. From any state that can be reached, the host writes
registers under any numbers and with any values. As long as no other number than 0 selects register
zero, it reads as zero. As long as no other number than 12 selects the status register, data goes
after each call where that register says, and the call reports the mode exactly if it has changed
it; only while an exception is being taken is there no report. -/
theorem registerNumbers_keep_rules {call : Operation}
    (writes : ∀ one ∈ calls ++ [call], one.writesRegister = true) :
    let before := cpu.operateAll bus calls
    let after := before.operate bus call
    (cpu.ReachableBy (·.namesZero = true) → (∀ one ∈ calls ++ [call], one.namesZero = true) →
        before.gpr 0 = 0 ∧ after.cpu.gpr 0 = 0) ∧
      (cpu.ReachableBy (·.namesStatus = true) →
        (∀ one ∈ calls ++ [call], one.namesStatus = true) →
          (after.cpu.core.space =
              if hasAny after.cpu.core.system.status 0x00010000 then
                if hasAny after.cpu.core.system.status 0x00020000 then .instructionCache
                else .dataCache
              else .program) ∧
            modeReports after.notes =
              if cpu.core.sequencer.state = .exception ∨
                  before.core.userMode = after.cpu.core.userMode then []
              else [after.cpu.core.userMode]) := by
  intro before after
  have earlier {one : Operation} (member : one ∈ calls) : one ∈ calls ++ [call] :=
    List.mem_append_left _ member
  have last : call ∈ calls ++ [call] := List.mem_append_right _ (List.mem_singleton_self _)
  constructor
  · intro reached names
    have sequence : before.ReachableBy (·.namesZero = true) :=
      reached.leads (Leads.refl.operateAll bus fun one member => names one (earlier member))
    have zero : before.core.reg 0 = 0 := sequence.reg_zero
    exact ⟨zero, (reg_zero_operate before bus (names call last)).trans zero⟩
  · intro reached names
    have sequence : before.ReachableBy (·.namesStatus = true) :=
      reached.leads (Leads.refl.operateAll bus fun one member => names one (earlier member))
    have called : after.cpu.ReachableBy (·.namesStatus = true) :=
      sequence.leads (.operate bus (names call last) .refl)
    refine ⟨called.selected, ?_⟩
    -- None of the calls begins or ends an exception, so the state at the start decides.
    have kept : before.core.sequencer = cpu.core.sequencer :=
      sequencer_operateAll fun one member => writes one (earlier member)
    by_cases taking : cpu.core.sequencer.state = .exception
    · rw [if_pos (.inl taking)]
      exact modeReports_of_exception (writes call last) (kept ▸ taking)
    · have calm : (before.core.sequencer.state == .exception) = false := by
        rw [kept]
        exact beq_false_of_ne taking
      have changed := before.operate_after bus call
      rw [calm] at changed
      simp only [taking, false_or]
      exact changed.reports_eq (names call last)

end

def justBuilt : Cpu := (Cpu.build (.ofModel .r3051)).1

/-- Number 33 selects register 1, and a write to the status register isolates the data cache and
leads to user mode, which is reported. -/
theorem registerNumbers_keep_rules_isolating :
    let before := justBuilt.operateAll noMemory [.setGpr 33 5]
    let after := before.operate noMemory (.setSystemReg 12 0x10002)
    after.cpu.gpr 1 = 5 ∧ after.cpu.gpr 0 = 0 ∧ after.cpu.core.space = .dataCache ∧
      modeReports after.notes = [true] := by
  intro before after
  have built {allowed : Operation → Prop} : justBuilt.ReachableBy allowed := ⟨_, .refl⟩
  obtain ⟨zero, status⟩ := @registerNumbers_keep_rules justBuilt Ram _ noMemory [.setGpr 33 5]
    (.setSystemReg 12 0x10002) (by decide)
  obtain ⟨space, reports⟩ := status built (by decide)
  refine ⟨by decide +kernel, (zero built (by decide)).2, ?_, ?_⟩
  · rw [space]
    decide +kernel
  · rw [reports]
    decide +kernel

/-- The status register is written under the number 44. -/
def writtenByAlias : Cpu × List Note := justBuilt.setSystemReg 44 0x10002

/-- A system call was executed directly and left for a handler. -/
def leftForHandler : Cpu := (justBuilt.execute noMemory 0x0000000c).cpu

/-- Other numbers do break the rules: 32 writes register zero, and 44 writes the status register
without any effect on the memory for data and without a report. Nor is there a report after an
instruction that was executed directly has been left for a handler. -/
theorem registerNumbers_break_rules :
    justBuilt.Reachable ∧ (justBuilt.setGpr 32 7).gpr 0 = 7 ∧
      (hasAny writtenByAlias.1.core.system.status 0x00010000 = true ∧
        writtenByAlias.1.core.space = .program ∧ justBuilt.core.userMode = false ∧
        writtenByAlias.1.core.userMode = true ∧ modeReports writtenByAlias.2 = []) ∧
      leftForHandler.core.userMode = false ∧
      (leftForHandler.setSystemReg 12 0x2).1.core.userMode = true ∧
      modeReports (leftForHandler.setSystemReg 12 0x2).2 = [] :=
  ⟨⟨_, .refl⟩, by decide +kernel, by decide +kernel, by decide +kernel⟩

end Cpu

end R3000

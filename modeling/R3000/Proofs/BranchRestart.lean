import R3000.Proofs.DelaySlots
import R3000.Proofs.Entering

/-!
# Branches that are executed again

An exception in a delay slot restarts the program at the branch before it, which has already had
its effect on the registers. A taken branch writes nothing but its link. So it may be executed
again if it does not read the register that it links to: it decides the same, goes to the same
target and writes the same link.

What a branch decides depends on the general registers, the conditions of the coprocessors and the
permission to use them, and the address of the branch. Nothing else of the state has to be as it
was.
-/
namespace R3000

/-! ### What a branch reads and writes -/

/-- The registers that a condition compares. -/
def Condition.operands : Condition → List RegNum
  | equal rs rt | notEqual rs rt => [rs, rt]
  | lessEqualZero rs | greaterZero rs | negative rs | notNegative rs => [rs]

namespace Instr

/-- The register that an instruction leaves the address after its delay slot in. -/
def link? : Instr → Option RegNum
  | .jump true _ => some 31
  | .jumpRegister link _ => link
  | .branch _ _ true _ => some 31
  | _ => none

/-- The registers that decide what an instruction does to the sequencing. -/
def decidedBy : Instr → List RegNum
  | .jumpRegister _ rs => [rs]
  | .branch condition _ _ _ => condition.operands
  | _ => []

/-- The instruction changes a register that it is decided by. -/
def spoilsItself (instr : Instr) : Bool :=
  match instr.link? with
  | some reg => reg != 0 && instr.decidedBy.contains reg
  | none => false

end Instr

namespace Core

/-- The registers with the link of an instruction. -/
def linked (core : Core) (instr : Instr) : Registers :=
  match instr.link? with
  | some reg => core.registers.write reg core.linkAddress
  | none => core.registers

/-- The core after a branch that is taken. -/
def branched (core : Core) (instr : Instr) (target : Word) : Core :=
  { core with registers := core.linked instr, sequencer := ⟨.branch, target⟩ }

/-- The coprocessor that an instruction addresses may be used. -/
def permits (core : Core) : Instr → Bool
  | .system _ => !(core.userMode && !core.unitUsable 0)
  | .float _ => core.unitUsable 1
  | .foreign unit _ => core.unitUsable unit
  | _ => true

/-- What decides about branches is the same in two cores, apart from where they are. -/
structure SameInputs (core other : Core) : Prop where
  gprs : ∀ reg, other.reg reg = core.reg reg
  conditions : other.conditions = core.conditions
  control : other.fpu.map (·.control31) = core.fpu.map (·.control31)
  status : other.system.status = core.system.status

/-- Two cores agree on the general registers, and on where they are and go on. -/
structure SameProgram (core other : Core) : Prop where
  gprs : ∀ reg, other.reg reg = core.reg reg
  position : other.position = core.position

section

variable {core other : Core} {random : Fin 64} {word target : Word} {instr : Instr}

/-! ### Taken branches -/

theorem taken_of_ofBranch {taken likely : Bool} {place : Word}
    (gone : Course.ofBranch taken likely place = .branch target) :
    taken = true ∧ place = target := by
  cases taken with
  | true => exact ⟨rfl, Course.branch.inj gone⟩
  | false => cases likely <;> cases gone

theorem branchIf_of_taken {taken likely : Bool} {offset : Word}
    (gone : Course.ofBranch taken likely (core.branchTarget offset) = .branch target) :
    core.branchIf taken likely offset = core.branchTo target := by
  obtain ⟨rfl, rfl⟩ := taken_of_ofBranch gone
  rfl

/-- A branch that is taken and permitted writes its link and remembers its target, and does nothing
else. -/
theorem issueInstr_of_taken (taken : core.course instr = .branch target)
    (permitted : core.permits instr = true) :
    core.issueInstr random word instr = .done (core.branched instr target) := by
  cases instr with
  | jump link place =>
    cases taken
    cases link <;> rfl
  | jumpRegister link rs =>
    cases taken
    cases link <;> rfl
  | branch condition likely link offset =>
    simp only [issueInstr, branchIf_of_taken taken]
    cases link <;> rfl
  | system op =>
    cases op with
    | branch branch =>
      have allowed : (core.userMode && !core.unitUsable 0) = false := by
        simpa only [permits, Bool.not_eq_true'] using permitted
      simp only [issueInstr, issueSystem, allowed, branchIf_of_taken taken]
      rfl
    | _ => cases taken
  | float float =>
    cases float with
    | branch branch =>
      have allowed : core.unitUsable 1 = true := permitted
      cases present : core.fpu with
      | none => simp [course, present] at taken
      | some unit =>
        simp only [course, present] at taken
        simp only [issueInstr, issueFloat, allowed, present, issueFloatOn, branchIf_of_taken taken]
        rfl
    | _ => cases taken
  | foreign unit branch =>
    cases branch with
    | some branch =>
      have allowed : core.unitUsable unit = true := permitted
      simp only [issueInstr, issueForeign, allowed, branchIf_of_taken taken]
      rfl
    | none => cases taken
  | _ => cases taken

theorem raises_of_not_permitted (refused : core.permits instr = false) :
    ∃ trap, core.issueInstr random word instr = .raise trap := by
  cases instr with
  | system op =>
    have denied : (core.userMode && !core.unitUsable 0) = true := by
      simpa only [permits, Bool.not_eq_false'] using refused
    exact ⟨.unusable 0, by simp only [issueInstr, issueSystem, denied, if_true]⟩
  | float float =>
    have denied : core.unitUsable 1 = false := refused
    exact ⟨.unusable 1, by simp [issueInstr, issueFloat, denied]⟩
  | foreign unit branch =>
    have denied : core.unitUsable unit = false := refused
    exact ⟨.unusable unit, by simp [issueInstr, issueForeign, denied]⟩
  | _ => cases refused

/-! ### What a link spoils -/

theorem holds_congr {first second : Registers} {condition : Condition}
    (same : ∀ reg ∈ condition.operands, first.read reg = second.read reg) :
    condition.holds first = condition.holds second := by
  cases condition with
  | equal rs rt | notEqual rs rt =>
    have left := same rs (by simp [Condition.operands])
    have right := same rt (by simp [Condition.operands])
    simp only [Condition.holds, left, right]
  | lessEqualZero rs | greaterZero rs | negative rs | notNegative rs =>
    have operand := same rs (by simp [Condition.operands])
    simp only [Condition.holds, operand]

/-- What decides about an instruction is its own operands, the conditions of the coprocessors, and
where it is. -/
theorem course_congr (place : other.pc = core.pc)
    (operands : ∀ reg ∈ instr.decidedBy, other.reg reg = core.reg reg)
    (conditions : other.conditions = core.conditions)
    (control : other.fpu.map (·.control31) = core.fpu.map (·.control31)) :
    other.course instr = core.course instr := by
  cases instr with
  | jump link target => simp only [course, jumpTarget, place]
  | jumpRegister link rs =>
    have target := operands rs (by simp [Instr.decidedBy])
    simp only [course, target]
  | branch condition likely link offset =>
    have decided : condition.holds other.registers = condition.holds core.registers :=
      holds_congr operands
    simp only [course, decided, branchTarget, place]
  | system op =>
    cases op with
    | branch branch => simp only [course, unitCourse, condition, conditions, branchTarget, place]
    | _ => rfl
  | foreign unit branch =>
    cases branch with
    | some branch => simp only [course, unitCourse, condition, conditions, branchTarget, place]
    | none => rfl
  | float float =>
    cases float with
    | branch branch =>
      cases first : core.fpu with
      | none =>
        rw [first, Option.map_none, Option.map_eq_none_iff] at control
        simp only [course, first, control]
      | some unit =>
        rw [first, Option.map_some, Option.map_eq_some_iff] at control
        obtain ⟨held, present, same⟩ := control
        simp only [course, first, present, unitCourse, FloatUnit.condition, same, branchTarget,
          place]
    | _ => rfl
  | _ => rfl

theorem read_linked (reg : RegNum) :
    (core.linked instr).read reg =
      if instr.link? = some reg ∧ reg ≠ 0 then core.pc + 8 else core.reg reg := by
  cases linked : instr.link? with
  | none => simp [Core.linked, linked, Core.reg]
  | some link =>
    simp only [Core.linked, linked, Registers.read_write, Option.some.injEq]
    by_cases same : reg = link
    · subst same
      rfl
    · simp [same, Ne.symm same, Core.reg]

/-- An instruction that does not spoil itself finds its operands as they were. -/
theorem read_linked_of_operand (spares : instr.spoilsItself = false) {reg : RegNum}
    (operand : reg ∈ instr.decidedBy) : (core.linked instr).read reg = core.reg reg := by
  rw [read_linked, if_neg]
  rintro ⟨linked, nonzero⟩
  simp [Instr.spoilsItself, linked, nonzero, operand] at spares

theorem permits_congr (same : other.system.status = core.system.status) :
    other.permits instr = core.permits instr := by
  cases instr <;> simp only [permits, userMode, unitUsable, same]

/-- Where inputs and address are those after a branch and before it, the branch goes the same way
again, and leaves the registers as they are. -/
theorem SameInputs.again (taken : core.course instr = .branch target)
    (spares : instr.spoilsItself = false)
    (same : (core.branched instr target).SameInputs other) (place : other.pc = core.pc) :
    other.course instr = .branch target ∧
      (core.branched instr target).advance.SameProgram (other.branched instr target).advance := by
  have gprs (reg : RegNum) : other.reg reg = (core.linked instr).read reg := same.gprs reg
  constructor
  · rw [← taken]
    refine course_congr place (fun reg operand => ?_) same.conditions same.control
    rw [gprs, read_linked_of_operand spares operand]
  · constructor
    case gprs =>
      intro reg
      change (other.linked instr).read reg = (core.linked instr).read reg
      -- The link is counted from the same address, and the rest has not changed.
      rw [read_linked, gprs, read_linked, place]
      split <;> rfl
    case position =>
      change (other.pc + 4, _) = (core.pc + 4, _)
      rw [place]
      rfl

end

end Core

namespace Cpu

section

variable {β : Type} [Bus β] {cpu : Cpu} {bus : β} {word target : Word}

theorem execute_of_taken (taken : cpu.core.course (decode word) = .branch target)
    (permitted : cpu.core.permits (decode word) = true) (bus : β) :
    cpu.execute bus word =
      ⟨{ cpu with core := cpu.core.branched (decode word) target }, bus, []⟩ := by
  have issued : cpu.core.issue cpu.random word = _ := Core.issueInstr_of_taken taken permitted
  simp only [execute, issued]
  rfl

/-- A step that executes a taken branch does so in its own core, up to the search orders. -/
theorem step_of_taken (executes : cpu.Executes bus word)
    (taken : cpu.core.course (decode word) = .branch target) :
    cpu.core.permits (decode word) = true ∧
      ∃ mmu, (cpu.step bus).cpu.core =
        ({ cpu.core with mmu }.branched (decode word) target).advance := by
  obtain ⟨fetched, memory, marked, silent, stepped⟩ := executes.begins
  have begins : fetched.core.course (decode word) = .branch target := by
    rw [Core.course_of_forgetOrders marked]
    exact taken
  have permitted : fetched.core.permits (decode word) = true := by
    cases refused : fetched.core.permits (decode word) with
    | true => rfl
    | false =>
      obtain ⟨trap, raised⟩ : ∃ trap, fetched.core.issue fetched.random word = .raise trap :=
        Core.raises_of_not_permitted refused
      have reported : fetched.executeTrap memory word = some trap := by
        simp only [executeTrap, raised]
      cases reported.symm.trans silent
  have own := Core.eq_of_forgetOrders marked
  have status := congrArg (·.status) (Core.system_of_forgetOrders marked)
  refine ⟨(Core.permits_congr status).symm.trans permitted, fetched.core.mmu, ?_⟩
  rw [stepped, execute_of_taken begins permitted]
  exact congrArg (fun core => (core.branched (decode word) target).advance) own

/-- A taken branch that is permitted is executed if it is fetched and no interrupt is due. -/
theorem executes_of_taken (fetches : (cpu.fetch bus).1 = .ok word)
    (calm : cpu.interruptDue = false) (taken : cpu.core.course (decode word) = .branch target)
    (permitted : cpu.core.permits (decode word) = true) : cpu.Executes bus word := by
  refine ⟨fetches, ?_⟩
  rw [← fetch_tick] at fetches
  cases fetch : (cpu.tick 1).fetch bus with
  | mk answer rest =>
    obtain ⟨fetched, memory⟩ := rest
    rw [fetch] at fetches
    cases fetches
    have marked : fetched.core.forgetOrders = cpu.core.forgetOrders := by
      rw [fetch_of_ok fetch]
      exact Core.forgetOrders_mark _ _
    have begins : fetched.core.course (decode word) = .branch target := by
      rw [Core.course_of_forgetOrders marked]
      exact taken
    have status := congrArg (·.status) (Core.system_of_forgetOrders marked)
    have allowed := (Core.permits_congr status).trans permitted
    rw [step_of_execute fetch calm, execute_of_taken begins allowed]
    rfl

end

/-- Branches can be restarted. When a step has executed a taken branch, an exception in the delay
slot has the branch as its restart address. Let the program be back at the branch with the general
registers, the conditions, the control register of the floating point unit and the status that the
branch has left. Unless the branch spoils what it is decided by, which only a jump and a branch with
a link can do, it is then taken again: it raises nothing, stores the same target, links to the same
address, and leaves the registers and the place of the program as it has done before. Nothing else
has to be as it was, neither the memory nor the branch that was in progress. -/
theorem branch_restarts {β : Type} [Bus β] {cpu : Cpu} {bus : β} {word target : Word}
    (executes : cpu.Executes bus word) (taken : cpu.core.course (decode word) = .branch target)
    (spares : (decode word).spoilsItself = false) :
    let after := (cpu.step bus).cpu
    (∀ {γ : Type} [Bus γ] (slot : γ), entered (after.step slot).notes ≠ [] →
        (after.step slot).cpu.core.system.epc = cpu.core.pc) ∧
      ∀ other : Cpu, after.core.SameInputs other.core → other.core.pc = cpu.core.pc →
        other.core.course (decode word) = .branch target ∧
        ∀ {γ : Type} [Bus γ] (memory : γ),
          (∃ again, advance (other.execute memory word) = ⟨again, memory, []⟩ ∧
            after.core.SameProgram again.core ∧ again.core.sequencer = ⟨.delay, target⟩ ∧
            ∀ reg, (decode word).link? = some reg → reg ≠ 0 →
              again.core.reg reg = cpu.core.pc + 8) ∧
          ((other.fetch memory).1 = .ok word → other.interruptDue = false →
            other.Executes memory word ∧
              after.core.SameProgram (other.step memory).cpu.core) := by
  obtain ⟨permitted, mmu, stepped⟩ := step_of_taken executes taken
  intro after
  have sameCore : after.core = _ := stepped
  refine ⟨fun slot trapped => ?_, fun other same place => ?_⟩
  · obtain ⟨trap, raised⟩ := stepTrap_of_entered trapped
    obtain ⟨core, memory, begins, left⟩ := step_of_trap raised
    -- The slot lies right behind the branch, and knows that it is a slot.
    have position : core.position = (cpu.core.pc + 4, ⟨.delay, target⟩) := by
      rw [Core.position_of_forgetOrders begins, sameCore]
      rfl
    obtain ⟨pc, sequencer⟩ := Prod.mk.inj position
    have restart : (after.step slot).cpu.core.system.epc = core.restartPc := by
      rw [left]
      exact Core.epc_enter core trap
    rw [restart, Core.restartPc, sequencer, pc]
    exact BitVec.add_sub_cancel _ _
  · rw [sameCore] at same ⊢
    have inputs : (cpu.core.branched (decode word) target).SameInputs other.core :=
      ⟨same.gprs, same.conditions, same.control, same.status⟩
    obtain ⟨again, repeats⟩ := inputs.again taken spares place
    have allowed : other.core.permits (decode word) = true :=
      (Core.permits_congr same.status).trans permitted
    refine ⟨again, fun memory => ⟨?_, fun fetches calm => ?_⟩⟩
    · refine ⟨_, congrArg advance (execute_of_taken again allowed memory),
        ⟨repeats.gprs, repeats.position⟩, rfl, ?_⟩
      intro reg linked nonzero
      change (other.core.linked (decode word)).read reg = _
      rw [Core.read_linked, if_pos ⟨linked, nonzero⟩, place]
    · have repeated := executes_of_taken fetches calm again allowed
      obtain ⟨-, orders, ended⟩ := step_of_taken repeated again
      refine ⟨repeated, ?_⟩
      rw [ended]
      exact ⟨repeats.gprs, repeats.position⟩

/-- A branch with a link at the boot vector, over a system call in its slot. -/
def linkOverCall : Ram where
  base := 0x1fc00000
  order := .big
  faults := []
  data := #[0x05, 0x11, 0x00, 0x03, 0x00, 0x00, 0x00, 0x0c]

def beforeLink : Cpu := (Cpu.build (.ofModel .r3000A)).1.setGpr 8 5

def afterLink : Cpu := (beforeLink.step linkOverCall).cpu

def calling : Cpu := (afterLink.step linkOverCall).cpu

/-- The handler of the system call has put back the status and returned to the branch. -/
def backAtLink : Cpu := (calling.setSystemReg 12 0x00400000).1.setPc calling.core.system.epc

/-- The branch is taken again and links to the same address. -/
theorem branch_restarts_link :
    calling.core.system.epc = 0xbfc00000 ∧ backAtLink.Executes linkOverCall 0x05110003 ∧
      afterLink.core.SameProgram (backAtLink.step linkOverCall).cpu.core ∧
      (backAtLink.step linkOverCall).cpu.core.reg 31 = 0xbfc00008 := by
  have executes : beforeLink.Executes linkOverCall 0x05110003 := ⟨rfl, by decide +kernel⟩
  have taken : beforeLink.core.course (decode 0x05110003) = .branch 0xbfc00010 := by
    decide +kernel
  obtain ⟨restart, restarts⟩ := branch_restarts executes taken (by decide)
  have trapped : entered (afterLink.step linkOverCall).notes ≠ [] := by decide +kernel
  have same : afterLink.core.SameInputs backAtLink.core :=
    ⟨by decide +kernel, by decide +kernel, by decide +kernel, by decide +kernel⟩
  have place : backAtLink.core.pc = beforeLink.core.pc := restart linkOverCall trapped
  obtain ⟨-, again⟩ := restarts backAtLink same place
  obtain ⟨repeats, repeated⟩ := (again linkOverCall).2 rfl (by decide +kernel)
  have linked : afterLink.core.reg 31 = 0xbfc00008 := by decide +kernel
  exact ⟨restart linkOverCall trapped, repeats, repeated, (repeated.gprs 31).trans linked⟩

end Cpu

end R3000

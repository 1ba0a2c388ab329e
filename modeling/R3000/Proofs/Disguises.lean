import R3000.Execution.Issue
import R3000.Proofs.SearchOrder

/-!
# Issuing in disguise

Much of what surrounds a program does not show in the instructions that it is issued. No
instruction is issued by a search: those that look into the lookaside buffer look at its
entries, by their slots. Of the description of the processor none looks at more than the byte
order, and that only to move a part of an unaligned word.

A disguise changes what does not show. What is issued to a disguised core is then the same, and
a core that results has the same disguise.
-/
namespace R3000

/-- A change of the description, and one of the lookaside buffer that keeps its entries. -/
structure Disguise where
  config : Config → Config
  buffer : Tlb → Tlb
  entry : ∀ tlb slot, (buffer tlb).entry slot = tlb.entry slot
  setEntry : ∀ tlb slot entry, buffer (tlb.setEntry slot entry) = (buffer tlb).setEntry slot entry

/-- Another search order for every kind of access: that of a reset. -/
def Disguise.orders : Disguise where
  config := id
  buffer := Tlb.resetOrders
  entry _ _ := rfl
  setEntry _ _ _ := rfl

/-- Another byte order in the description. -/
def Disguise.byteOrder (order : ByteOrder) : Disguise where
  config := (·.withByteOrder order)
  buffer := id
  entry _ _ := rfl
  setEntry _ _ _ := rfl

/-- Another description. -/
def Disguise.description (config : Config) : Disguise where
  config _ := config
  buffer := id
  entry _ _ := rfl
  setEntry _ _ _ := rfl

/-! ### What looks at the byte order -/

def LoadOp.isPart : LoadOp → Bool
  | wordLeft | wordRight => true
  | _ => false

def StoreOp.isPart : StoreOp → Bool
  | wordLeft | wordRight => true
  | _ => false

/-- The instruction moves a part of an unaligned word. -/
def Instr.isPart : Instr → Bool
  | load op _ _ _ => op.isPart
  | store op _ _ _ => op.isPart
  | _ => false

namespace Core

def disguised (core : Core) (disguise : Disguise) : Core :=
  { core with
    config := disguise.config core.config
    mmu := core.mmu.mapBuffer disguise.buffer }

theorem disguised_orders (core : Core) : core.disguised .orders = core.forgetOrders := rfl

end Core

/-- What is issued, with the disguise in place of a core that results. -/
def Issue.disguised (disguise : Disguise) : Issue → Issue
  | retire core notes extra => retire (core.disguised disguise) notes extra
  | other => other

namespace Core

section

variable (core : Core) (disguise : Disguise) (random : Fin 64) (word : Word)

/-! ### The parts of issuing -/

theorem hasBuffer_disguised : (core.disguised disguise).mmu.hasBuffer = core.mmu.hasBuffer := by
  simp only [disguised, Mmu.hasBuffer, Mmu.buffer?_mapBuffer, Option.isSome_map]

theorem branchIf_disguised (taken likely : Bool) (offset : Word) :
    (core.disguised disguise).branchIf taken likely offset =
      (core.branchIf taken likely offset).disguised disguise := by
  cases taken <;> cases likely <;> rfl

theorem setInput_disguised (line : Nat) (level : Bool) :
    (core.disguised disguise).setInput line level =
      ((core.setInput line level).1.disguised disguise, (core.setInput line level).2) := by
  simp only [setInput]
  split
  · rfl
  · split <;> rfl

theorem updateUnit_disguised (unit : FloatUnit) (update : LineUpdate) :
    (core.disguised disguise).updateUnit unit update =
      ((core.updateUnit unit update).1.disguised disguise, (core.updateUnit unit update).2) := by
  cases update with
  | none => rfl
  | some level => exact setInput_disguised { core with fpu := some unit } disguise unit.irq level

theorem writeSystem_disguised (number : Nat) (value : Word) :
    (core.disguised disguise).writeSystem number value =
      ((core.writeSystem number value).1.disguised disguise,
        (core.writeSystem number value).2) := by
  simp only [writeSystem, hasBuffer_disguised]
  split <;> rfl

theorem readSystem_disguised (number : Nat) :
    (core.disguised disguise).readSystem random number = core.readSystem random number := by
  simp only [readSystem, hasBuffer_disguised]
  rfl

theorem writeSlot_disguised (slot : Fin 64) (chosen : Bool) :
    (core.disguised disguise).writeSlot slot chosen =
      ((core.writeSlot slot chosen).1.disguised disguise, (core.writeSlot slot chosen).2) := by
  -- Storing an entry moves no slot in the orders.
  have stored (mmu : Mmu) (entry : TlbEntry) :
      (mmu.mapBuffer disguise.buffer).mapBuffer (·.setEntry slot entry) =
        (mmu.mapBuffer (·.setEntry slot entry)).mapBuffer disguise.buffer := by
    cases mmu with
    | fixed => rfl
    | tlb buffer | bypass buffer => simp only [Mmu.mapBuffer, disguise.setEntry]
  simp only [writeSlot, disguised, stored]

/-! ### Instructions of the coprocessors -/

/-- The instructions for the buffer look at its entries, which have no order. -/
theorem issueTlb_disguised (buffer : Tlb) (op : TlbOp) :
    (core.disguised disguise).issueTlb random (disguise.buffer buffer) op =
      (core.issueTlb random buffer op).disguised disguise := by
  cases op with
  | read =>
    simp only [issueTlb, disguise.entry]
    rfl
  | writeIndexed | writeRandom =>
    simp only [issueTlb, writeSlot_disguised]
    rfl
  | probe =>
    simp only [issueTlb, Tlb.probe, disguise.entry]
    rfl

theorem issueSystem_disguised (op : SystemOp) :
    (core.disguised disguise).issueSystem random word op =
      (core.issueSystem random word op).disguised disguise := by
  have sameMode : (core.disguised disguise).userMode = core.userMode := rfl
  have sameUse : (core.disguised disguise).unitUsable 0 = core.unitUsable 0 := rfl
  have sameReg : (core.disguised disguise).reg = core.reg := rfl
  simp only [issueSystem, sameMode, sameUse]
  split
  · rfl
  · cases op with
    | moveFrom rt source =>
      simp only [readSystem_disguised]
      rfl
    | moveTo rt target =>
      simp only [sameReg, writeSystem_disguised]
      rfl
    | branch branch =>
      exact congrArg Issue.done (core.branchIf_disguised disguise
        (core.condition 0 == branch.sense) branch.likely branch.offset)
    | restoreMode => rfl
    | reserved => rfl
    | tlb op =>
      have sameBuffer :
          (core.disguised disguise).mmu.buffer? = core.mmu.buffer?.map disguise.buffer :=
        core.mmu.buffer?_mapBuffer disguise.buffer
      simp only [sameBuffer]
      cases core.mmu.buffer? with
      | none => rfl
      | some buffer => exact issueTlb_disguised core disguise random buffer op

theorem issueFloat_disguised (float : FloatInstr) :
    (core.disguised disguise).issueFloat word float =
      (core.issueFloat word float).disguised disguise := by
  have sameUse : (core.disguised disguise).unitUsable 1 = core.unitUsable 1 := rfl
  have sameUnit : (core.disguised disguise).fpu = core.fpu := rfl
  have sameReg : (core.disguised disguise).reg = core.reg := rfl
  simp only [issueFloat, sameUse, sameUnit]
  split
  · rfl
  · cases core.fpu with
    | none => rfl
    -- The unit knows nothing of the rest; its results go to the registers or to its line.
    | some unit =>
      cases float with
      | controlFrom rt fs =>
        simp only [issueFloatOn]
        split <;> rfl
      | controlTo rt fs =>
        simp only [issueFloatOn, sameReg, updateUnit_disguised]
        split <;> rfl
      | branch branch =>
        exact congrArg Issue.done (core.branchIf_disguised disguise
          (unit.condition == branch.sense) branch.likely branch.offset)
      | operate op =>
        simp only [issueFloatOn, updateUnit_disguised]
        rfl
      | unimplemented =>
        simp only [issueFloatOn, unimplementedFloat, updateUnit_disguised]
        rfl
      | _ => rfl

theorem issueForeign_disguised (unit : Fin 4) (branch : Option UnitBranch) :
    (core.disguised disguise).issueForeign word unit branch =
      (core.issueForeign word unit branch).disguised disguise := by
  have sameUse : (core.disguised disguise).unitUsable unit = core.unitUsable unit := rfl
  simp only [issueForeign, sameUse]
  split
  · rfl
  · cases branch with
    | none => rfl
    | some branch =>
      exact congrArg Issue.done (core.branchIf_disguised disguise
        (core.condition unit == branch.sense) branch.likely branch.offset)

/-! ### Loads and stores -/

theorem loadOf_disguised {op : LoadOp}
    (hidden : (disguise.config core.config).byteOrder = core.config.byteOrder ∨ op.isPart = false)
    (rt : RegNum) (address : Word) :
    (core.disguised disguise).loadOf op rt address = core.loadOf op rt address := by
  cases op with
  | wordLeft | wordRight =>
    have same := hidden.resolve_right Bool.true_eq_false.mp
    simp only [loadOf, disguised, same]
  | _ => rfl

theorem storeOf_disguised {op : StoreOp}
    (hidden : (disguise.config core.config).byteOrder = core.config.byteOrder ∨ op.isPart = false)
    (value address : Word) :
    (core.disguised disguise).storeOf op value address = core.storeOf op value address := by
  cases op with
  | wordLeft | wordRight =>
    have same := hidden.resolve_right Bool.true_eq_false.mp
    simp only [storeOf, disguised, same]
  | _ => rfl

/-! ### All instructions -/

/-- A disguise shows in no instruction, unless it is another byte order and the instruction
moves a part of an unaligned word. -/
theorem issueInstr_disguised {instr : Instr}
    (hidden : (disguise.config core.config).byteOrder = core.config.byteOrder ∨
      instr.isPart = false) :
    (core.disguised disguise).issueInstr random word instr =
      (core.issueInstr random word instr).disguised disguise := by
  have sameReg : (core.disguised disguise).reg = core.reg := rfl
  cases instr with
  | checked op rd rs rt =>
    simp only [issueInstr, sameReg]
    split <;> rfl
  | checkedImmediate rt rs operand =>
    simp only [issueInstr, sameReg]
    split <;> rfl
  | divide signed rs rt =>
    simp only [issueInstr, issueDivide, sameReg]
    split <;> rfl
  | jump link target => cases link <;> rfl
  | jumpRegister link rs => cases link <;> rfl
  | branch condition likely link offset =>
    have branched :=
      core.branchIf_disguised disguise (condition.holds core.registers) likely offset
    cases link with
    | true => exact congrArg (fun next => Issue.done (next.setReg 31 core.linkAddress)) branched
    | false => exact congrArg Issue.done branched
  | load op rt base offset =>
    exact congrArg Issue.load (core.loadOf_disguised disguise hidden rt _)
  | store op rt base offset =>
    exact congrArg Issue.store (core.storeOf_disguised disguise hidden _ _)
  | system op => exact issueSystem_disguised core disguise random word op
  | float float => exact issueFloat_disguised core disguise word float
  | foreign unit branch => exact issueForeign_disguised core disguise word unit branch
  | _ =>
    -- The others compute with the registers of the program.
    rfl

theorem receive_disguised (destination : Destination) {width : Width}
    (value : BitVec width.bits) :
    (core.disguised disguise).receive destination value =
      (core.receive destination value).disguised disguise := by
  cases destination <;> rfl

end

end Core

/-- Two issues that are equal in a disguise are equal, or complete with cores that are. -/
theorem Issue.cases_of_disguised {disguise : Disguise} {issue other : Issue}
    (same : issue.disguised disguise = other.disguised disguise) :
    issue = other ∨ ∃ core core' notes extra, issue = .retire core notes extra ∧
      other = .retire core' notes extra ∧ core.disguised disguise = core'.disguised disguise := by
  cases issue with
  | retire core notes extra =>
    cases other with
    | retire core' notes' extra' =>
      obtain ⟨cores, rfl, rfl⟩ := Issue.retire.inj same
      exact .inr ⟨core, core', notes, extra, rfl, rfl, cores⟩
    | _ => cases same
  | _ =>
    -- Only a core can be in disguise.
    cases other with
    | retire core' notes' extra' => cases same
    | _ => exact .inl same

end R3000

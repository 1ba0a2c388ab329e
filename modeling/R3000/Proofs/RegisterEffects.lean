import R3000.Proofs.RegisterNumbers
import R3000.Proofs.RegisterUse

/-!
# What an instruction does to the registers

An instruction writes the general register that its word names as the destination, and no other.
What it does is decided without the general registers that its word does not name as sources. The
registers of the multiplier and the memories have a few instructions of their own that change them.

To see this, two processors that differ in general registers which a word does not name execute it.
Both have the same effect on their registers, and the rest stays equal.
-/
namespace R3000

/-! ### Effects on the registers -/

/-- What an instruction does to the registers: what it writes to its destination, and what it leaves
in the two registers of the multiplier. -/
structure RegisterEffect where
  written : Option Word := none
  multiplier : Option (Word × Word) := none
  deriving DecidableEq, Repr

/-- The effect is one that the use of registers names. -/
def Usage.Allows (usage : Usage) (effect : RegisterEffect) : Prop :=
  effect.multiplier.isSome = true → usage.setsMultiplier = true

/-- What is loaded goes where the use of registers says, and is merged with a source at most. -/
def Destination.Fits (usage : Usage) : Destination → Prop
  | signed rt | unsigned rt => usage.destination = some rt
  | left rt _ | right rt _ => usage.destination = some rt ∧ rt ∈ usage.sources
  | float _ => True

namespace Registers

/-- The registers with an effect on them. -/
def update (registers : Registers) (destination : Option RegNum) (effect : RegisterEffect) :
    Registers :=
  let multiplied : Registers := match effect.multiplier with
    | some (hi, lo) => { registers with hi, lo }
    | none => registers
  match destination, effect.written with
  | some reg, some value => multiplied.write reg value
  | _, _ => multiplied

/-- Registers that differ in other general registers than some at most. -/
structure AgreeOn (sources : List RegNum) (first second : Registers) : Prop where
  reads : ∀ reg ∈ sources, second.read reg = first.read reg
  hi : second.hi = first.hi
  lo : second.lo = first.lo

section

variable {registers first second : Registers} {destination : Option RegNum}
  {effect : RegisterEffect} {sources : List RegNum}

theorem update_nothing : registers.update destination {} = registers := by
  cases destination <;> rfl

/-- Only the destination changes, and not if it is register zero. -/
theorem read_update (reg : RegNum) :
    (registers.update destination effect).read reg =
      if destination = some reg ∧ reg ≠ 0 then effect.written.getD (registers.read reg)
      else registers.read reg := by
  obtain ⟨written, multiplier⟩ := effect
  -- The registers of the multiplier are none of the general ones.
  have general : (match multiplier with
      | some (hi, lo) => { registers with hi, lo }
      | none => registers).gpr = registers.gpr := by cases multiplier <;> rfl
  cases destination with
  | none => simp [update, read, general]
  | some named =>
    cases written with
    | none => simp [update, read, general]
    | some value =>
      simp only [update, read_write, Option.some.injEq, Option.getD_some]
      by_cases same : reg = named
      · subst same
        simp only [read, general]
      · simp only [same, Ne.symm same, false_and, if_false, read, general]

theorem multiplier_update (kept : effect.multiplier = none) :
    (registers.update destination effect).hi = registers.hi ∧
      (registers.update destination effect).lo = registers.lo := by
  simp only [update, kept]
  split
  · simp only [hi_write, lo_write, and_self]
  · exact ⟨rfl, rfl⟩

theorem AgreeOn.product (agree : first.AgreeOn sources second) :
    second.product = first.product := by
  simp only [Registers.product, agree.hi, agree.lo]

end

end Registers

namespace Core

def withRegisters (core : Core) (registers : Registers) : Core := { core with registers }

/-! ### The parts of issuing -/

section

variable (core : Core) (registers : Registers)

@[simp] theorem userMode_withRegisters :
    (core.withRegisters registers).userMode = core.userMode := by
  simp only [userMode, withRegisters]

@[simp] theorem unitUsable_withRegisters (unit : Nat) :
    (core.withRegisters registers).unitUsable unit = core.unitUsable unit := by
  simp only [unitUsable, withRegisters]

@[simp] theorem mmu_withRegisters : (core.withRegisters registers).mmu = core.mmu := rfl

@[simp] theorem fpu_withRegisters : (core.withRegisters registers).fpu = core.fpu := rfl

@[simp] theorem space_withRegisters : (core.withRegisters registers).space = core.space := rfl

@[simp] theorem place_withRegisters (demand : Demand) :
    (core.withRegisters registers).place demand = core.place demand := rfl

theorem branchIf_withRegisters (taken likely : Bool) (offset : Word) :
    (core.withRegisters registers).branchIf taken likely offset =
      (core.branchIf taken likely offset).withRegisters registers := by
  cases taken <;> cases likely <;> rfl

theorem setInput_withRegisters (line : Nat) (level : Bool) :
    (core.withRegisters registers).setInput line level =
      ((core.setInput line level).1.withRegisters registers, (core.setInput line level).2) := by
  simp only [setInput]
  split
  · rfl
  · split <;> rfl

theorem updateUnit_withRegisters (unit : FloatUnit) (update : LineUpdate) :
    (core.withRegisters registers).updateUnit unit update =
      ((core.updateUnit unit update).1.withRegisters registers,
        (core.updateUnit unit update).2) := by
  cases update with
  | none => rfl
  | some level =>
    exact setInput_withRegisters { core with fpu := some unit } registers unit.irq level

theorem writeSystem_withRegisters (number : Nat) (value : Word) :
    (core.withRegisters registers).writeSystem number value =
      ((core.writeSystem number value).1.withRegisters registers,
        (core.writeSystem number value).2) := by
  simp only [writeSystem]
  split <;> rfl

theorem mark_withRegisters (demand : Demand) :
    (core.withRegisters registers).mark demand = (core.mark demand).withRegisters registers := by
  simp only [mark, touch, userMode_withRegisters]
  cases route core.userMode demand.address <;> rfl

end

/-- Registers that agree on the sources of an instruction give it the same operands. -/
theorem reg_withRegisters {first second : Registers} {sources : List RegNum}
    (agree : first.AgreeOn sources second) (core : Core) {reg : RegNum} (named : reg ∈ sources) :
    (core.withRegisters second).reg reg = (core.withRegisters first).reg reg :=
  agree.reads reg named

end Core

/-! ### Instructions that are alike -/

/-- Two issues that have the same effect on different registers, which is one that the instruction
names, and do the same otherwise. -/
inductive Issue.Alike (usage : Usage) (first second : Registers) : Issue → Issue → Prop where
  | retire (core : Core) (notes : List Note) (extra : Nat) (effect : RegisterEffect)
      (allowed : usage.Allows effect) :
      Alike usage first second
        (.retire (core.withRegisters (first.update usage.destination effect)) notes extra)
        (.retire (core.withRegisters (second.update usage.destination effect)) notes extra)
  | raise (trap : Trap) : Alike usage first second (.raise trap) (.raise trap)
  | load (load : Load) (fits : load.destination.Fits usage) :
      Alike usage first second (.load load) (.load load)
  | store (store : Store) (allowed : usage.stores = true) :
      Alike usage first second (.store store) (.store store)

namespace Issue.Alike

variable {usage : Usage} {first second : Registers}

/-- An instruction that leaves the registers alone. -/
theorem keeps (core : Core) (notes : List Note) (extra : Nat) :
    Alike usage first second (.retire (core.withRegisters first) notes extra)
      (.retire (core.withRegisters second) notes extra) := by
  have same : Alike usage first second _ _ :=
    retire core notes extra {} fun changed => Bool.noConfusion changed
  simpa only [Registers.update_nothing] using same

/-- An instruction that writes a value to its destination. -/
theorem writes (core : Core) {rd : RegNum} (named : usage.destination = some rd) (value : Word) :
    Alike usage first second (.done ((core.withRegisters first).setReg rd value))
      (.done ((core.withRegisters second).setReg rd value)) := by
  have same : Alike usage first second _ _ :=
    retire core [] 0 { written := some value } fun changed => Bool.noConfusion changed
  rw [named] at same
  exact same

/-- An instruction without a destination that sets the registers of the multiplier. -/
theorem multiplies (core : Core) (unnamed : usage.destination = none)
    (allowed : usage.setsMultiplier = true) (hi lo : Word) (extra : Nat) :
    Alike usage first second (.retire (core.withRegisters { first with hi, lo }) [] extra)
      (.retire (core.withRegisters { second with hi, lo }) [] extra) := by
  have same : Alike usage first second _ _ :=
    retire core [] extra { multiplier := some (hi, lo) } fun _ => allowed
  rw [unnamed] at same
  exact same

end Issue.Alike

namespace Core

section

variable {core : Core} {random : Fin 64} {word : Word} {first second : Registers}

theorem issueProduct_alike {usage : Usage} {rd : RegNum} (named : usage.destination = some rd)
    (allowed : usage.setsMultiplier = true) (value : BitVec 64) :
    Issue.Alike usage first second ((core.withRegisters first).issueProduct rd value)
      ((core.withRegisters second).issueProduct rd value) := by
  let hi := value.extractLsb' 32 32
  let lo := value.extractLsb' 0 32
  have same : Issue.Alike usage first second _ _ :=
    .retire core [] multiplyCycles { written := some lo, multiplier := some (hi, lo) }
      fun _ => allowed
  rw [named] at same
  exact same

theorem issueDivide_alike {usage : Usage} (unnamed : usage.destination = none)
    (allowed : usage.setsMultiplier = true) (signed : Bool) (dividend divisor : Word) :
    Issue.Alike usage first second ((core.withRegisters first).issueDivide signed dividend divisor)
      ((core.withRegisters second).issueDivide signed dividend divisor) := by
  simp only [issueDivide]
  split
  · exact .keeps core [] divideCycles
  · exact .multiplies core unnamed allowed _ _ divideCycles

theorem issueTlb_alike (usage : Usage) (buffer : Tlb) (op : TlbOp) :
    Issue.Alike usage first second ((core.withRegisters first).issueTlb random buffer op)
      ((core.withRegisters second).issueTlb random buffer op) := by
  cases op with
  | read =>
    exact .keeps { core with system := core.system.putEntry (buffer.entry core.system.indexedSlot) }
      [] 0
  | writeIndexed => exact .keeps (core.writeSlot core.system.indexedSlot false).1 _ 0
  | writeRandom => exact .keeps (core.writeSlot random true).1 _ 0
  | probe =>
    let slot := SystemControl.indexOf (buffer.probe core.system.entryHi)
    exact .keeps { core with system := core.system.put SystemControl.indexReg slot } _ 0

theorem issueSystem_alike {op : SystemOp} (agree : first.AgreeOn op.usage.sources second) :
    Issue.Alike op.usage first second ((core.withRegisters first).issueSystem random word op)
      ((core.withRegisters second).issueSystem random word op) := by
  simp only [issueSystem, userMode_withRegisters, unitUsable_withRegisters]
  split
  · exact .raise _
  · cases op with
    | moveFrom rt source => exact .writes core rfl (core.readSystem random source)
    | moveTo rt target =>
      have named : rt ∈ (SystemOp.moveTo rt target).usage.sources := by simp [SystemOp.usage]
      simp only [reg_withRegisters agree core named, writeSystem_withRegisters]
      exact .keeps _ _ 0
    | branch branch =>
      simp only [branchIf_withRegisters]
      exact .keeps _ [] 0
    | restoreMode => exact .keeps core.restoreMode.1 core.restoreMode.2 0
    | reserved => exact .raise _
    | tlb op =>
      simp only [mmu_withRegisters]
      cases core.mmu.buffer? with
      | none => exact .raise _
      | some buffer => exact issueTlb_alike _ buffer op

theorem issueFloat_alike {float : FloatInstr} (agree : first.AgreeOn float.usage.sources second) :
    Issue.Alike float.usage first second ((core.withRegisters first).issueFloat word float)
      ((core.withRegisters second).issueFloat word float) := by
  have operand (reg : RegNum) (named : reg ∈ float.usage.sources) :
      (core.withRegisters second).reg reg = (core.withRegisters first).reg reg :=
    reg_withRegisters agree core named
  simp only [issueFloat, unitUsable_withRegisters, fpu_withRegisters]
  split
  · exact .raise _
  · cases core.fpu with
    | none => exact .keeps core [] 0
    | some unit =>
      cases float with
      | moveFrom rt fs => exact .writes core rfl (unit.half fs)
      | moveTo rt fs =>
        simp only [issueFloatOn, operand rt (by simp [FloatInstr.usage])]
        exact .keeps { core with fpu := some (unit.setHalf fs (first.read rt)) } [] 0
      | controlFrom rt fs =>
        simp only [issueFloatOn]
        split
        next value held => exact .writes core rfl value
        · exact .keeps core _ 0
      | controlTo rt fs =>
        simp only [issueFloatOn, operand rt (by simp [FloatInstr.usage])]
        split
        · simp only [updateUnit_withRegisters]
          exact .keeps _ _ 0
        · exact .keeps core _ 0
      | branch branch =>
        simp only [issueFloatOn, branchIf_withRegisters]
        exact .keeps _ [] 0
      | load ft base offset =>
        simp only [issueFloatOn, effectiveAddress, operand base (by simp [FloatInstr.usage])]
        exact .load _ trivial
      | store ft base offset =>
        simp only [issueFloatOn, effectiveAddress, operand base (by simp [FloatInstr.usage])]
        exact .store _ rfl
      | operate op =>
        simp only [issueFloatOn, updateUnit_withRegisters]
        exact .keeps _ _ 0
      | unimplemented =>
        simp only [issueFloatOn, unimplementedFloat, updateUnit_withRegisters]
        exact .keeps _ _ 0

theorem issueForeign_alike (usage : Usage) (unit : Fin 4) (branch : Option UnitBranch) :
    Issue.Alike usage first second ((core.withRegisters first).issueForeign word unit branch)
      ((core.withRegisters second).issueForeign word unit branch) := by
  simp only [issueForeign, unitUsable_withRegisters]
  split
  · exact .raise _
  · cases branch with
    | none => exact .raise _
    | some branch =>
      simp only [branchIf_withRegisters]
      exact .keeps _ [] 0

/-- What an instruction does is decided without the registers that it does not name. -/
theorem issueInstr_alike {instr : Instr} (agree : first.AgreeOn instr.usage.sources second) :
    Issue.Alike instr.usage first second ((core.withRegisters first).issueInstr random word instr)
      ((core.withRegisters second).issueInstr random word instr) := by
  have operand (reg : RegNum) (named : reg ∈ instr.usage.sources) :
      (core.withRegisters second).reg reg = (core.withRegisters first).reg reg :=
    reg_withRegisters agree core named
  cases instr with
  | shift op rd rt amount =>
    simp only [issueInstr, operand rt (by simp [Instr.usage])]
    exact .writes core rfl _
  | shiftVariable op rd rt rs =>
    simp only [issueInstr, operand rt (by simp [Instr.usage]), operand rs (by simp [Instr.usage])]
    exact .writes core rfl _
  | compute op rd rs rt =>
    simp only [issueInstr, operand rs (by simp [Instr.usage]), operand rt (by simp [Instr.usage])]
    exact .writes core rfl _
  | computeImmediate op rt rs immediate =>
    simp only [issueInstr, operand rs (by simp [Instr.usage])]
    exact .writes core rfl _
  | checked op rd rs rt =>
    simp only [issueInstr, operand rs (by simp [Instr.usage]), operand rt (by simp [Instr.usage])]
    split
    · exact .writes core rfl _
    · exact .raise _
  | checkedImmediate rt rs immediate =>
    simp only [issueInstr, operand rs (by simp [Instr.usage])]
    split
    · exact .writes core rfl _
    · exact .raise _
  | loadUpper rt value => exact .writes core rfl value
  | multiply signed rd rs rt =>
    simp only [issueInstr, operand rs (by simp [Instr.usage]), operand rt (by simp [Instr.usage])]
    exact issueProduct_alike rfl rfl _
  | multiplyAdd signed rd rs rt =>
    have sum : (core.withRegisters second).registers.product =
      (core.withRegisters first).registers.product := agree.product
    simp only [issueInstr, sum, operand rs (by simp [Instr.usage]),
      operand rt (by simp [Instr.usage])]
    exact issueProduct_alike rfl rfl _
  | divide signed rs rt =>
    simp only [issueInstr, operand rs (by simp [Instr.usage]), operand rt (by simp [Instr.usage])]
    exact issueDivide_alike rfl rfl _ _ _
  | moveFromHi rd =>
    have held : (core.withRegisters second).registers.hi =
      (core.withRegisters first).registers.hi := agree.hi
    simp only [issueInstr, held]
    exact .writes core rfl _
  | moveFromLo rd =>
    have held : (core.withRegisters second).registers.lo =
      (core.withRegisters first).registers.lo := agree.lo
    simp only [issueInstr, held]
    exact .writes core rfl _
  | moveToHi rs =>
    have held : (core.withRegisters second).registers.lo =
      (core.withRegisters first).registers.lo := agree.lo
    simp only [issueInstr, operand rs (by simp [Instr.usage]), held]
    exact .multiplies core rfl rfl _ _ 0
  | moveToLo rs =>
    have held : (core.withRegisters second).registers.hi =
      (core.withRegisters first).registers.hi := agree.hi
    simp only [issueInstr, operand rs (by simp [Instr.usage]), held]
    exact .multiplies core rfl rfl _ _ 0
  | jump link target =>
    cases link with
    | true => exact .writes (core.branchTo (core.jumpTarget target)) rfl core.linkAddress
    | false => exact .keeps (core.branchTo (core.jumpTarget target)) [] 0
  | jumpRegister link rs =>
    simp only [issueInstr, operand rs (by simp [Instr.usage])]
    cases link with
    | some rd => exact .writes (core.branchTo (first.read rs)) rfl core.linkAddress
    | none => exact .keeps (core.branchTo (first.read rs)) [] 0
  | branch condition likely link offset =>
    have decided : condition.holds (core.withRegisters second).registers =
      condition.holds (core.withRegisters first).registers := holds_congr operand
    simp only [issueInstr, decided, branchIf_withRegisters]
    cases link with
    | true =>
      exact .writes (core.branchIf (condition.holds first) likely offset) rfl core.linkAddress
    | false => exact .keeps _ [] 0
  | load op rt base offset =>
    have named : (.load op rt base offset : Instr).usage.destination = some rt := rfl
    have address : base ∈ (.load op rt base offset : Instr).usage.sources := by
      cases op <;> simp [Instr.usage, LoadOp.sources, LoadOp.isPart]
    simp only [issueInstr, effectiveAddress, operand base address]
    cases op with
    | wordLeft | wordRight =>
      exact .load _ ⟨named, by simp [Instr.usage, LoadOp.sources, LoadOp.isPart]⟩
    | _ => exact .load _ named
  | store op rt base offset =>
    simp only [issueInstr, effectiveAddress, operand base (by simp [Instr.usage]),
      operand rt (by simp [Instr.usage])]
    exact .store _ rfl
  | syscall | breakpoint | reserved => exact .raise _
  | nothing => exact .keeps core [] 0
  | system op => exact issueSystem_alike agree
  | float float => exact issueFloat_alike agree
  | foreign unit branch => exact issueForeign_alike _ unit branch

/-! ### Loads, traps and accesses -/

/-- A load has the same effect on registers that agree on its sources. -/
theorem receive_alike (core : Core) {usage : Usage} {destination : Destination}
    (fits : destination.Fits usage) (agree : first.AgreeOn usage.sources second) {width : Width}
    (value : BitVec width.bits) :
    ∃ (next : Core) (written : Option Word),
      (core.withRegisters first).receive destination value =
          next.withRegisters (first.update usage.destination { written }) ∧
        (core.withRegisters second).receive destination value =
          next.withRegisters (second.update usage.destination { written }) := by
  cases destination with
  | signed rt =>
    have named : usage.destination = some rt := fits
    rw [named]
    exact ⟨core, some (value.signExtend 32), rfl, rfl⟩
  | unsigned rt =>
    have named : usage.destination = some rt := fits
    rw [named]
    exact ⟨core, some (value.setWidth 32), rfl, rfl⟩
  | left rt shift =>
    obtain ⟨named, source⟩ := fits
    rw [named]
    refine ⟨core, some (mergeLeft shift (first.read rt) (value.setWidth 32)), rfl, ?_⟩
    rw [receive, reg_withRegisters agree core source]
    rfl
  | right rt shift =>
    obtain ⟨named, source⟩ := fits
    rw [named]
    refine ⟨core, some (mergeRight shift (first.read rt) (value.setWidth 32)), rfl, ?_⟩
    rw [receive, reg_withRegisters agree core source]
    rfl
  | float ft =>
    refine ⟨core.receive (.float ft) value, none, ?_⟩
    rw [Registers.update_nothing, Registers.update_nothing]
    exact ⟨rfl, rfl⟩

end

end Core

/-- Two outcomes on different registers with the same effect on them, which is one that the use of
registers names. Apart from the registers they are equal; the notes of both have the same events,
since only a dump of the registers shows more. -/
structure Outcome.Alike {β : Type} (usage : Usage) (first second : Registers)
    (outcome other : Outcome β) : Prop where
  effect : ∃ effect, usage.Allows effect ∧
    outcome.cpu.core.registers = first.update usage.destination effect ∧
    other.cpu.core.registers = second.update usage.destination effect
  rest : other.cpu =
    { outcome.cpu with core := outcome.cpu.core.withRegisters other.cpu.core.registers }
  bus : other.bus = outcome.bus
  events : events other.notes = events outcome.notes

namespace Cpu

def withRegisters (cpu : Cpu) (registers : Registers) : Cpu :=
  { cpu with core := cpu.core.withRegisters registers }

@[simp] theorem core_withRegisters (cpu : Cpu) (registers : Registers) :
    (cpu.withRegisters registers).core = cpu.core.withRegisters registers := rfl

variable {β : Type} {usage : Usage} {first second : Registers}

/-- A trap leaves the registers as they are. -/
theorem trap_alike (cpu : Cpu) (bus : β) (trap : Trap) :
    Outcome.Alike usage first second ((cpu.withRegisters first).trap bus trap)
      ((cpu.withRegisters second).trap bus trap) where
  effect := by
    refine ⟨{}, fun changed => Bool.noConfusion changed, ?_⟩
    rw [Registers.update_nothing, Registers.update_nothing]
    exact ⟨rfl, rfl⟩
  rest := rfl
  bus := rfl
  events := by
    cases trap <;> rfl

variable [Bus β]

theorem load_alike (cpu : Cpu) (bus : β) {load : Load} (fits : load.destination.Fits usage)
    (agree : first.AgreeOn usage.sources second) :
    Outcome.Alike usage first second ((cpu.withRegisters first).load bus load)
      ((cpu.withRegisters second).load bus load) := by
  have sameData (registers : Registers) :
      (cpu.withRegisters registers).readData bus = cpu.readData bus := rfl
  simp only [load_eq, core_withRegisters, Core.place_withRegisters, sameData, mark,
    Core.mark_withRegisters]
  cases cpu.core.place load.demand with
  | error trap => exact trap_alike cpu bus trap
  | ok place =>
    simp only
    generalize cpu.readData bus load.width place = answer
    obtain ⟨value, memory⟩ := answer
    cases value with
    | error reason => exact trap_alike (cpu.mark load.demand) memory _
    | ok value =>
      obtain ⟨next, written, one, two⟩ :=
        (cpu.core.mark load.demand).receive_alike fits agree value
      simp only [one, two]
      exact ⟨⟨{ written }, fun changed => Bool.noConfusion changed, rfl, rfl⟩, rfl, rfl, rfl⟩

theorem store_alike (cpu : Cpu) (bus : β) (store : Store) :
    Outcome.Alike usage first second ((cpu.withRegisters first).store bus store)
      ((cpu.withRegisters second).store bus store) := by
  have sameData (registers : Registers) (place : Word) :
      (cpu.withRegisters registers).writeData bus store.width place store.value store.mask =
        let written := cpu.writeData bus store.width place store.value store.mask
        (written.1, written.2.1.withRegisters registers, written.2.2) := by
    simp only [writeData, core_withRegisters, Core.space_withRegisters]
    cases cpu.core.space <;> rfl
  simp only [store_eq, core_withRegisters, Core.place_withRegisters, sameData, mark,
    Core.mark_withRegisters]
  cases cpu.core.place store.demand with
  | error trap => exact trap_alike cpu bus trap
  | ok place =>
    simp only
    generalize cpu.writeData bus store.width place store.value store.mask = answer
    obtain ⟨value, written, memory⟩ := answer
    cases value with
    | error reason => exact trap_alike (cpu.mark store.demand) memory _
    | ok done =>
      refine ⟨⟨{}, fun changed => Bool.noConfusion changed, ?_⟩, rfl, rfl, rfl⟩
      rw [Registers.update_nothing, Registers.update_nothing]
      exact ⟨rfl, rfl⟩

/-- A word does the same to registers that agree on its sources. -/
theorem execute_alike (cpu : Cpu) (bus : β) {word : Word}
    (agree : first.AgreeOn (Encoding.sources word) second) :
    Outcome.Alike (Encoding.usage word) first second ((cpu.withRegisters first).execute bus word)
      ((cpu.withRegisters second).execute bus word) := by
  have named := usage_decode word
  have sources : first.AgreeOn (decode word).usage.sources second := by
    rw [named]
    exact agree
  have issued : Issue.Alike (decode word).usage first second
      ((cpu.core.withRegisters first).issue cpu.random word)
      ((cpu.core.withRegisters second).issue cpu.random word) := Core.issueInstr_alike sources
  have sameIssue (registers : Registers) :
      (cpu.withRegisters registers).core.issue (cpu.withRegisters registers).random word =
        (cpu.core.withRegisters registers).issue cpu.random word := rfl
  rw [named] at issued
  simp only [execute, sameIssue]
  generalize (cpu.core.withRegisters first).issue cpu.random word = one at issued ⊢
  generalize (cpu.core.withRegisters second).issue cpu.random word = two at issued ⊢
  cases issued with
  | retire core notes extra effect allowed => exact ⟨⟨effect, allowed, rfl, rfl⟩, rfl, rfl, rfl⟩
  | raise trap => exact trap_alike cpu bus trap
  | load load fits => exact load_alike cpu bus fits agree
  | store store allowed => exact store_alike cpu bus store

/-! ### Memories -/

/-- A word that is no store changes no cache, and asks the memory for one value at most. -/
theorem execute_reads (cpu : Cpu) (bus : β) {word : Word} (reads : Encoding.stores word = false) :
    let after := cpu.execute bus word
    after.cpu.icache = cpu.icache ∧ after.cpu.dcache = cpu.dcache ∧
      (after.bus = bus ∨ ∃ width place, after.bus = (Bus.read bus width place).2) := by
  have issued : Issue.Alike (decode word).usage cpu.core.registers cpu.core.registers
      (cpu.core.issue cpu.random word) (cpu.core.issue cpu.random word) :=
    Core.issueInstr_alike ⟨fun _ _ => rfl, rfl, rfl⟩
  have named := usage_decode word
  rw [named] at issued
  simp only [execute]
  revert issued
  cases cpu.core.issue cpu.random word with
  | retire core notes extra => exact fun _ => ⟨rfl, rfl, .inl rfl⟩
  | raise trap => exact fun _ => ⟨rfl, rfl, .inl rfl⟩
  | store store =>
    intro issued
    cases issued with
    | store store allowed => cases allowed.symm.trans reads
  | load load =>
    intro _
    simp only [load_eq]
    cases cpu.core.place load.demand with
    | error trap => exact ⟨rfl, rfl, .inl rfl⟩
    | ok place =>
      have asked : (cpu.readData bus load.width place).2 = bus ∨
          ∃ width address, (cpu.readData bus load.width place).2 =
            (Bus.read bus width address).2 := by
        unfold readData
        split
        · exact .inr ⟨_, _, rfl⟩
        · exact .inl rfl
        · exact .inl rfl
      simp only
      split
      · exact ⟨rfl, rfl, asked⟩
      · exact ⟨rfl, rfl, asked⟩

/-! ### The registers after an instruction -/

/-- An instruction has an effect on the registers that its word names. -/
theorem registers_execute (cpu : Cpu) (bus : β) (word : Word) :
    ∃ effect, (Encoding.usage word).Allows effect ∧
      (cpu.execute bus word).cpu.core.registers =
        cpu.core.registers.update (Encoding.destination? word) effect := by
  -- The processor is compared with itself.
  have itself : cpu.core.registers.AgreeOn (Encoding.sources word) cpu.core.registers :=
    ⟨fun _ _ => rfl, rfl, rfl⟩
  obtain ⟨effect, allowed, effected, -⟩ := (execute_alike cpu bus itself).effect
  exact ⟨effect, allowed, effected⟩

theorem reg_execute_of_ne (cpu : Cpu) (bus : β) {word : Word} {reg : RegNum}
    (other : Encoding.destination? word ≠ some reg) :
    (cpu.execute bus word).cpu.core.reg reg = cpu.core.reg reg := by
  obtain ⟨effect, -, effected⟩ := cpu.registers_execute bus word
  rw [Core.reg, effected, Registers.read_update, if_neg fun both => other both.1]
  rfl

theorem multiplier_execute (cpu : Cpu) (bus : β) {word : Word}
    (spared : Encoding.setsMultiplier word = false) :
    (cpu.execute bus word).cpu.core.registers.hi = cpu.core.registers.hi ∧
      (cpu.execute bus word).cpu.core.registers.lo = cpu.core.registers.lo := by
  obtain ⟨effect, allowed, effected⟩ := cpu.registers_execute bus word
  have kept : effect.multiplier = none := by
    cases multiplied : effect.multiplier with
    | none => rfl
    | some value =>
      have sets : Encoding.setsMultiplier word = true := allowed (by rw [multiplied]; rfl)
      cases sets.symm.trans spared
  rw [effected]
  exact Registers.multiplier_update kept

theorem Leads.reg_zero {cpu later : Cpu} (run : Leads (·.namesZero = true) cpu later)
    (zero : cpu.core.reg 0 = 0) : later.core.reg 0 = 0 := by
  apply run.keeps (P := fun cpu => cpu.core.reg 0 = 0)
  · intro γ _ cpu bus operation names held
    exact (reg_zero_operate cpu bus names).trans held
  · exact zero

/-- Each instruction writes only its destination. Let register zero be zero, as it is at the
beginning, and let any word be executed in any state on any memory. Then register zero is zero, and
no general register has changed but the one that the word names as its destination. The registers of
the multiplier have not changed unless the word is a move to them, a product or a division. Nor have
the caches unless it is a store, and the memory was asked for one value at most.

What the word does depends on no general register that it does not name as a source: where other
registers differ, the effect on the registers is the same, and so are the rest of the processor, the
memory and the events. And register zero stays zero in every run, of any program on any memories. -/
theorem execute_writes_destination {β : Type} [Bus β] (cpu : Cpu) (bus : β) (word : Word)
    (zero : cpu.core.reg 0 = 0) :
    let after := cpu.execute bus word
    after.cpu.core.reg 0 = 0 ∧
      (∀ reg, Encoding.destination? word ≠ some reg →
        after.cpu.core.reg reg = cpu.core.reg reg) ∧
      (Encoding.setsMultiplier word = false →
        after.cpu.core.registers.hi = cpu.core.registers.hi ∧
          after.cpu.core.registers.lo = cpu.core.registers.lo) ∧
      (Encoding.stores word = false →
        after.cpu.icache = cpu.icache ∧ after.cpu.dcache = cpu.dcache ∧
          (after.bus = bus ∨ ∃ width place, after.bus = (Bus.read bus width place).2)) ∧
      (∀ registers, cpu.core.registers.AgreeOn (Encoding.sources word) registers →
        let other := (cpu.withRegisters registers).execute bus word
        (∃ effect, after.cpu.core.registers =
              cpu.core.registers.update (Encoding.destination? word) effect ∧
            other.cpu.core.registers = registers.update (Encoding.destination? word) effect) ∧
          other.cpu = after.cpu.withRegisters other.cpu.core.registers ∧ other.bus = after.bus ∧
          events other.notes = events after.notes) ∧
      ∀ later, Leads (·.namesZero = true) cpu later → later.core.reg 0 = 0 := by
  intro after
  refine ⟨(cpu.reg_zero_execute bus word).trans zero, fun reg other => ?_, fun spared => ?_,
    fun reads => cpu.execute_reads bus reads, fun registers agree => ?_,
    fun later run => run.reg_zero zero⟩
  · exact cpu.reg_execute_of_ne bus other
  · exact cpu.multiplier_execute bus spared
  · obtain ⟨⟨effect, -, one, two⟩, rest, bus, events⟩ := execute_alike cpu bus agree
    exact ⟨⟨effect, one, two⟩, rest, bus, events⟩

/-- The numbers 5 and 7 are in registers 8 and 9. -/
def addends : Cpu := (justBuilt.setGpr 8 5).setGpr 9 7

/-- The same with other values in the registers 10 and 11. -/
def otherRegisters : Registers := (addends.core.registers.write 10 3).write 11 4

/-- An addition into register 10 leaves the same sum there, whatever it held before, and leaves
register 11 as it was in each case. -/
theorem execute_writes_destination_sum :
    let after := addends.execute noMemory 0x01095020
    let other := (addends.withRegisters otherRegisters).execute noMemory 0x01095020
    after.cpu.core.reg 0 = 0 ∧ after.cpu.core.reg 11 = addends.core.reg 11 ∧
      after.cpu.core.reg 10 = 12 ∧ other.cpu.core.reg 10 = 12 ∧ other.cpu.core.reg 11 = 4 ∧
      other.bus = after.bus := by
  intro after other
  have agree : addends.core.registers.AgreeOn [8, 9] otherRegisters :=
    ⟨by decide +kernel, by decide +kernel, by decide +kernel⟩
  obtain ⟨zero, others, -, -, alike, -⟩ :=
    execute_writes_destination addends noMemory 0x01095020 (by decide +kernel)
  obtain ⟨-, -, bus, -⟩ := alike otherRegisters agree
  exact ⟨zero, others 11 (by decide), by decide +kernel, by decide +kernel, by decide +kernel, bus⟩

end Cpu

end R3000

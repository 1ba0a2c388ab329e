import R3000.Execution.Operation
import R3000.Instruction.Decode
import R3000.Resolution

/-!
# Issuing instructions

An instruction is issued from the state of the core alone. It either retires,
traps, or asks for one memory access and says what becomes of it. So no
instruction makes more than one data access, and none that traps when issued has
changed anything.
-/
namespace R3000

/-- What becomes of a loaded value. -/
inductive Destination where
  | signed (rt : RegNum)
  | unsigned (rt : RegNum)
  | left (rt : RegNum) (shift : Nat)
  | right (rt : RegNum) (shift : Nat)
  | float (ft : RegNum)
  deriving DecidableEq, Repr

structure Load where
  width : Width
  address : Word
  /-- The address has to be aligned; otherwise the word that contains it is loaded. -/
  checked : Bool
  destination : Destination
  deriving DecidableEq, Repr

structure Store where
  width : Width
  address : Word
  checked : Bool
  value : BitVec width.bits
  mask : BitVec width.bits

inductive Issue where
  /-- The instruction is complete, and took `extra` cycles besides the first. -/
  | retire (core : Core) (notes : List Note) (extra : Nat)
  | raise (trap : Trap)
  | load (load : Load)
  | store (store : Store)

namespace Issue

/-- An instruction that completes in one cycle and leaves no note. -/
def done (core : Core) : Issue := retire core [] 0

def noted (result : Core × List Note) : Issue := retire result.1 result.2 0

end Issue

/-- Cycles that a multiplication takes besides the first. -/
def multiplyCycles : Nat := 11

/-- Cycles that a division takes besides the first. -/
def divideCycles : Nat := 34

namespace Core

/-! ### Multiplier -/

/-- Put a product into the multiplier's registers, and its low word into `rd` as well. -/
def issueProduct (core : Core) (rd : RegNum) (value : BitVec 64) : Issue :=
  let registers := core.registers.setProduct value
  .retire { core with registers := registers.write rd registers.lo } [] multiplyCycles

/-- A division by zero leaves the multiplier's registers alone. -/
def issueDivide (core : Core) (signed : Bool) (dividend divisor : Word) : Issue :=
  if divisor = 0 then .retire core [] divideCycles
  else
    let (quotient, remainder) := quotientRemainder signed dividend divisor
    .retire { core with registers := { core.registers with lo := quotient, hi := remainder } } []
      divideCycles

/-! ### Jumps -/

/-- The address of the instruction after the delay slot. -/
def linkAddress (core : Core) : Word := core.pc + 8

/-- The target of a jump within the region of its delay slot. -/
def jumpTarget (core : Core) (target : BitVec 26) : Word :=
  ((core.pc + 4) &&& 0xf0000000) ||| target.setWidth 32 <<< 2

/-! ### Memory -/

def effectiveAddress (core : Core) (base : RegNum) (offset : Word) : Word := core.reg base + offset

def loadOf (core : Core) (op : LoadOp) (rt : RegNum) (address : Word) : Load :=
  match op with
  | .byteSigned => ⟨.byte, address, true, .signed rt⟩
  | .byteUnsigned => ⟨.byte, address, true, .unsigned rt⟩
  | .halfSigned => ⟨.half, address, true, .signed rt⟩
  | .halfUnsigned => ⟨.half, address, true, .unsigned rt⟩
  | .word => ⟨.word, address, true, .unsigned rt⟩
  | .wordLeft => ⟨.word, address, false, .left rt (leftShift core.config.byteOrder address)⟩
  | .wordRight => ⟨.word, address, false, .right rt (rightShift core.config.byteOrder address)⟩

def storeOf (core : Core) (op : StoreOp) (value address : Word) : Store :=
  match op with
  | .byte => ⟨.byte, address, true, value.setWidth 8, fullMask .byte⟩
  | .half => ⟨.half, address, true, value.setWidth 16, fullMask .half⟩
  | .word => ⟨.word, address, true, value, fullMask .word⟩
  | .wordLeft =>
    let shift := leftShift core.config.byteOrder address
    ⟨.word, address, false, value >>> shift, allBits >>> shift⟩
  | .wordRight =>
    let shift := rightShift core.config.byteOrder address
    ⟨.word, address, false, value <<< shift, allBits <<< shift⟩

/-- The core after a load has brought `value`. -/
def receive (core : Core) (destination : Destination) {width : Width}
    (value : BitVec width.bits) : Core :=
  match destination with
  | .signed rt => core.setReg rt (value.signExtend 32)
  | .unsigned rt => core.setReg rt (value.setWidth 32)
  | .left rt shift => core.setReg rt (mergeLeft shift (core.reg rt) (value.setWidth 32))
  | .right rt shift => core.setReg rt (mergeRight shift (core.reg rt) (value.setWidth 32))
  | .float ft => { core with fpu := core.fpu.map (·.setHalf ft (value.setWidth 32)) }

/-! ### System control -/

/-- Write the entry registers into a slot of the lookaside buffer. -/
def writeSlot (core : Core) (slot : Fin 64) (random : Bool) : Core × List Note :=
  let entry := core.system.entry
  ({ core with mmu := core.mmu.mapBuffer (·.setEntry slot entry) },
    [.message (.tlbWritten slot entry), .event (.tlbWrite slot entry random)])

def issueTlb (core : Core) (random : Fin 64) (buffer : Tlb) (op : TlbOp) : Issue :=
  match op with
  | .read =>
    let entry := buffer.entry core.system.indexedSlot
    .done { core with system := core.system.putEntry entry }
  | .writeIndexed => .noted (core.writeSlot core.system.indexedSlot false)
  | .writeRandom => .noted (core.writeSlot random true)
  | .probe =>
    let hi := core.system.entryHi
    let slot := buffer.probe hi
    let system := core.system.put SystemControl.indexReg (SystemControl.indexOf slot)
    .retire { core with system } [.event (.tlbProbe hi (slot.map Fin.val))] 0

/-- Programs in user mode need permission to use coprocessor 0; the kernel does not. -/
def issueSystem (core : Core) (random : Fin 64) (word : Word) (op : SystemOp) : Issue :=
  if core.userMode && !core.unitUsable 0 then .raise (.unusable 0)
  else
    match op with
    | .moveFrom rt source => .done (core.setReg rt (core.readSystem random source))
    | .moveTo rt target => .noted (core.writeSystem target (core.reg rt))
    | .branch branch =>
      .done (core.branchIf (core.condition 0 == branch.sense) branch.likely branch.offset)
    | .restoreMode => .noted core.restoreMode
    | .tlb op =>
      match core.mmu.buffer? with
      | some buffer => core.issueTlb random buffer op
      | none => .raise (.reserved word)
    | .reserved => .raise (.reserved word)

/-- The coprocessors 2 and 3 consist of their condition. -/
def issueForeign (core : Core) (word : Word) (unit : Fin 4) (branch : Option UnitBranch) :
    Issue :=
  if !core.unitUsable unit then .raise (.unusable unit)
  else
    match branch with
    | some branch =>
      .done (core.branchIf (core.condition unit == branch.sense) branch.likely branch.offset)
    | none => .raise (.reserved word)

/-! ### The floating point coprocessor -/

/-- Ask for an interrupt because the unit does not know an operation. -/
def unimplementedFloat (core : Core) (unit : FloatUnit) (word : Word) : Core × List Note :=
  let (next, notes) := core.updateUnit unit.unimplemented (some true)
  (next, [.message (.fpuUnimplemented word core.pc), .event (.fpuUnimplemented word)] ++ notes)

def issueFloatOn (core : Core) (unit : FloatUnit) (word : Word) (instr : FloatInstr) : Issue :=
  match instr with
  | .moveFrom rt fs => .done (core.setReg rt (unit.half fs))
  | .moveTo rt fs => .done { core with fpu := some (unit.setHalf fs (core.reg rt)) }
  | .controlFrom rt fs =>
    match unit.control? fs with
    | some value => .done (core.setReg rt value)
    | none => .retire core [.message (.controlReadIgnored fs)] 0
  | .controlTo rt fs =>
    match unit.setControl? fs (core.reg rt) with
    | some (unit, update) => .noted (core.updateUnit unit update)
    | none => .retire core [.message (.controlWriteIgnored fs (core.reg rt))] 0
  | .branch branch =>
    .done (core.branchIf (unit.condition == branch.sense) branch.likely branch.offset)
  | .load ft base offset => .load ⟨.word, core.effectiveAddress base offset, true, .float ft⟩
  | .store ft base offset =>
    .store ⟨.word, core.effectiveAddress base offset, true, unit.half ft, fullMask .word⟩
  | .operate op =>
    let (unit, update) := unit.execute op
    .noted (core.updateUnit unit update)
  | .unimplemented => .noted (core.unimplementedFloat unit word)

/-- Without a unit the instructions of a usable coprocessor 1 do nothing. -/
def issueFloat (core : Core) (word : Word) (instr : FloatInstr) : Issue :=
  if !core.unitUsable 1 then .raise (.unusable 1)
  else
    match core.fpu with
    | some unit => core.issueFloatOn unit word instr
    | none => .done core

/-! ### All instructions -/

/-- Issue an instruction, which was decoded from `word`. -/
def issueInstr (core : Core) (random : Fin 64) (word : Word) (instr : Instr) : Issue :=
  match instr with
  | .shift op rd rt amount => .done (core.setReg rd (op.apply (core.reg rt) amount.toNat))
  | .shiftVariable op rd rt rs =>
    .done (core.setReg rd (op.apply (core.reg rt) ((core.reg rs).extractLsb' 0 5).toNat))
  | .compute op rd rs rt => .done (core.setReg rd (op.apply (core.reg rs) (core.reg rt)))
  | .computeImmediate op rt rs operand => .done (core.setReg rt (op.apply (core.reg rs) operand))
  | .checked op rd rs rt =>
    match op.apply? (core.reg rs) (core.reg rt) with
    | some value => .done (core.setReg rd value)
    | none => .raise .overflow
  | .checkedImmediate rt rs operand =>
    match CheckedOp.apply? .add (core.reg rs) operand with
    | some value => .done (core.setReg rt value)
    | none => .raise .overflow
  | .loadUpper rt value => .done (core.setReg rt value)
  | .multiply signed rd rs rt =>
    core.issueProduct rd (wideProduct signed (core.reg rs) (core.reg rt))
  | .multiplyAdd signed rd rs rt =>
    core.issueProduct rd
      (core.registers.product + wideProduct signed (core.reg rs) (core.reg rt))
  | .divide signed rs rt => core.issueDivide signed (core.reg rs) (core.reg rt)
  | .moveFromHi rd => .done (core.setReg rd core.registers.hi)
  | .moveToHi rs => .done { core with registers := { core.registers with hi := core.reg rs } }
  | .moveFromLo rd => .done (core.setReg rd core.registers.lo)
  | .moveToLo rs => .done { core with registers := { core.registers with lo := core.reg rs } }
  | .jump link target =>
    let next := core.branchTo (core.jumpTarget target)
    .done (if link then next.setReg 31 core.linkAddress else next)
  | .jumpRegister link rs =>
    let next := core.branchTo (core.reg rs)
    .done (match link with
      | some rd => next.setReg rd core.linkAddress
      | none => next)
  | .branch condition likely link offset =>
    let next := core.branchIf (condition.holds core.registers) likely offset
    .done (if link then next.setReg 31 core.linkAddress else next)
  | .load op rt base offset => .load (core.loadOf op rt (core.effectiveAddress base offset))
  | .store op rt base offset =>
    .store (core.storeOf op (core.reg rt) (core.effectiveAddress base offset))
  | .syscall => .raise .syscall
  | .breakpoint => .raise .breakpoint
  | .nothing => .done core
  | .system op => core.issueSystem random word op
  | .float instr => core.issueFloat word instr
  | .foreign unit branch => core.issueForeign word unit branch
  | .reserved => .raise (.reserved word)

/-- Issue the instruction that a word encodes. -/
def issue (core : Core) (random : Fin 64) (word : Word) : Issue :=
  core.issueInstr random word (decode word)

end Core

end R3000

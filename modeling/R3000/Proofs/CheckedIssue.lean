import R3000.Proofs.CheckedFloat

/-!
# Issuing with checks

An instruction is decoded to its kind as always, but its registers and its shift amount are taken
from the fields of the word again, as numbers. So what is issued rests on no bound that a type
would carry from the decoder to the place where a register is looked up.

What is issued asks for an access in the same way, and what a load brings is received with checks
as well. A part of an unaligned word is shifted by one of four amounts, so it passes them.
-/
namespace R3000.Strict

/-- What becomes of a loaded value, with the number of the register that takes it. -/
inductive Destination where
  | signed (reg : Nat)
  | unsigned (reg : Nat)
  | left (reg shift : Nat)
  | right (reg shift : Nat)
  | float (reg : Nat)
  deriving DecidableEq, Repr

structure Load where
  width : Width
  address : Word
  checked : Bool
  destination : Destination
  deriving DecidableEq, Repr

inductive Issue where
  | retire (core : Core) (notes : List Note) (extra : Nat)
  | raise (trap : Trap)
  | load (load : Load)
  | store (store : Store)

def Destination.of : R3000.Destination → Destination
  | .signed rt => .signed rt
  | .unsigned rt => .unsigned rt
  | .left rt shift => .left rt shift
  | .right rt shift => .right rt shift
  | .float ft => .float ft

def Load.of (load : R3000.Load) : Load :=
  ⟨load.width, load.address, load.checked, .of load.destination⟩

def Issue.of : R3000.Issue → Issue
  | .retire core notes extra => .retire core notes extra
  | .raise trap => .raise trap
  | .load asked => .load (.of asked)
  | .store asked => .store asked

/-- The core that completes an instruction in one cycle, without a note. -/
def Issue.done (core : Core) : Issue := .retire core [] 0

def Issue.noted (result : Core × List Note) : Issue := .retire result.1 result.2 0

/-! ### Loads and stores -/

def effectiveAddress (core : Core) (word offset : Word) : Checked Word :=
  return (← readGpr core (Field.source word)) + offset

def loadOf (core : Core) (op : LoadOp) (reg : Nat) (address : Word) : Load :=
  match op with
  | .byteSigned => ⟨.byte, address, true, .signed reg⟩
  | .byteUnsigned => ⟨.byte, address, true, .unsigned reg⟩
  | .halfSigned => ⟨.half, address, true, .signed reg⟩
  | .halfUnsigned => ⟨.half, address, true, .unsigned reg⟩
  | .word => ⟨.word, address, true, .unsigned reg⟩
  | .wordLeft => ⟨.word, address, false, .left reg (leftShift core.config.byteOrder address)⟩
  | .wordRight => ⟨.word, address, false, .right reg (rightShift core.config.byteOrder address)⟩

def storeOf (core : Core) (op : StoreOp) (value address : Word) : Checked Store :=
  match op with
  | .byte => return ⟨.byte, address, true, value.setWidth 8, fullMask .byte⟩
  | .half => return ⟨.half, address, true, value.setWidth 16, fullMask .half⟩
  | .word => return ⟨.word, address, true, value, fullMask .word⟩
  | .wordLeft => do
    let shift := leftShift core.config.byteOrder address
    return ⟨.word, address, false, ← shiftRight value shift, ← shiftRight allBits shift⟩
  | .wordRight => do
    let shift := rightShift core.config.byteOrder address
    return ⟨.word, address, false, ← shiftLeft value shift, ← shiftLeft allBits shift⟩

/-- The core after a load has brought `value`. -/
def receive (core : Core) (destination : Destination) {width : Width}
    (value : BitVec width.bits) : Checked Core :=
  let word := value.setWidth 32
  match destination with
  | .signed reg => writeGpr core reg (value.signExtend 32)
  | .unsigned reg => writeGpr core reg word
  | .left reg shift => do
    let current ← readGpr core reg
    let kept := current &&& ~~~(← shiftLeft allBits shift)
    writeGpr core reg (kept ||| (← shiftLeft word shift))
  | .right reg shift => do
    let current ← readGpr core reg
    let kept := current &&& ~~~(← shiftRight allBits shift)
    writeGpr core reg (kept ||| (← shiftRight word shift))
  | .float reg =>
    match core.fpu with
    | some unit => return { core with fpu := some (← setHalf unit reg word) }
    | none => return core

@[simp] theorem loadOf_val (core : Core) (op : LoadOp) (rt : RegNum) (address : Word) :
    loadOf core op rt.val address = .of (core.loadOf op rt address) := by
  cases op with
  | wordLeft =>
    simp only [loadOf, leftShift_eq]
    rfl
  | wordRight =>
    simp only [loadOf, rightShift_eq]
    rfl
  | _ => rfl

@[simp] theorem storeOf_eq (core : Core) (op : StoreOp) (value address : Word) :
    storeOf core op value address = .ok (core.storeOf op value address) := by
  cases op with
  | wordLeft =>
    simp only [storeOf, leftShift_eq, shiftRight_of_lt (leftShift_lt _ address), ok_bind,
      pure_eq_ok, Core.storeOf]
  | wordRight =>
    simp only [storeOf, rightShift_eq, shiftLeft_of_lt (rightShift_lt _ address), ok_bind,
      pure_eq_ok, Core.storeOf]
  | _ => rfl

/-- A part of a word is shifted by less than a word. -/
def Fits : R3000.Destination → Prop
  | .left _ shift | .right _ shift => shift < 32
  | .signed _ | .unsigned _ | .float _ => True

theorem loadOf_fits (core : Core) (op : LoadOp) (rt : RegNum) (address : Word) :
    Fits (core.loadOf op rt address).destination := by
  cases op with
  | wordLeft => exact leftShift_lt _ address
  | wordRight => exact rightShift_lt _ address
  | _ => trivial

theorem receive_eq (core : Core) {destination : R3000.Destination} (fits : Fits destination)
    {width : Width} (value : BitVec width.bits) :
    receive core (.of destination) value = .ok (core.receive destination value) := by
  cases destination with
  | signed rt | unsigned rt => exact writeGpr_val core rt _
  | left rt shift =>
    simp only [receive, Destination.of, readGpr_val, shiftLeft_of_lt fits, ok_bind, writeGpr_val]
    rfl
  | right rt shift =>
    simp only [receive, Destination.of, readGpr_val, shiftRight_of_lt fits, ok_bind, writeGpr_val]
    rfl
  | float ft =>
    simp only [receive, Destination.of, setHalf_val, ok_bind, pure_eq_ok, Core.receive]
    -- Without a unit there is nothing to put back.
    have unchanged (absent : core.fpu = none) : { core with fpu := none } = core := by
      rw [← absent]
    cases present : core.fpu with
    | none => exact congrArg Except.ok (unchanged present).symm
    | some unit => rfl

/-! ### Parts of issuing -/

def issueProduct (core : Core) (word : Word) (value : BitVec 64) : Checked Issue := do
  let registers := core.registers.setProduct value
  let next ← writeGpr { core with registers } (Field.destination word) registers.lo
  return .retire next [] multiplyCycles

def issueDivide (core : Core) (word : Word) (signed : Bool) : Checked Issue := do
  let dividend ← readGpr core (Field.source word)
  let divisor ← readGpr core (Field.target word)
  if divisor = 0 then return .retire core [] divideCycles
  let (quotient, remainder) ← divide dividend divisor signed
  return .retire
    { core with registers := { core.registers with lo := quotient, hi := remainder } } []
    divideCycles

/-- The slot that the index register names. -/
def indexedSlot (core : Core) : Checked (Fin 64) :=
  slot (core.system.read SystemControl.indexReg >>> 8 &&& 0x3f).toNat

def issueTlb (core : Core) (random : Checked Word) (buffer : Tlb) (op : TlbOp) : Checked Issue := do
  match op with
  | .read =>
    let entry := buffer.entry (← indexedSlot core)
    return .done { core with system := core.system.putEntry entry }
  | .writeIndexed => return .noted (core.writeSlot (← indexedSlot core) false)
  | .writeRandom => return .noted (core.writeSlot (← slot (← random).toNat) true)
  | .probe =>
    let hi := core.system.entryHi
    let found := buffer.probe hi
    let system := core.system.put SystemControl.indexReg (SystemControl.indexOf found)
    return .retire { core with system } [.event (.tlbProbe hi (found.map Fin.val))] 0

def issueSystem (core : Core) (random : Checked Word) (word : Word) (op : SystemOp) :
    Checked Issue := do
  if core.userMode && !core.unitUsable 0 then return .raise (.unusable 0)
  match op with
  | .moveFrom _ _ =>
    let value ← readSystem core random (Field.destination word)
    return .done (← writeGpr core (Field.target word) value)
  | .moveTo _ _ =>
    let value ← readGpr core (Field.target word)
    return .noted (← writeSystem core (Field.destination word) value)
  | .branch branch =>
    let state ← condition core 0
    return .done (core.branchIf (state == branch.sense) branch.likely branch.offset)
  | .restoreMode => return .noted core.restoreMode
  | .tlb op =>
    match core.mmu.buffer? with
    | some buffer => issueTlb core random buffer op
    | none => return .raise (.reserved word)
  | .reserved => return .raise (.reserved word)

def issueForeign (core : Core) (word : Word) (branch : Option UnitBranch) : Checked Issue := do
  let unit := Field.unit word
  if !(← unitUsable core unit) then return .raise (.unusable unit)
  match branch with
  | some branch =>
    let state ← condition core unit
    return .done (core.branchIf (state == branch.sense) branch.likely branch.offset)
  | none => return .raise (.reserved word)

def issueFloatOn (core : Core) (unit : FloatUnit) (word : Word) (instr : FloatInstr) :
    Checked Issue := do
  let fs := Field.destination word
  match instr with
  | .moveFrom _ _ => return .done (← writeGpr core (Field.target word) (← half unit fs))
  | .moveTo _ _ =>
    let value ← readGpr core (Field.target word)
    return .done { core with fpu := some (← setHalf unit fs value) }
  | .controlFrom _ control =>
    match unit.control? control with
    | some value => return .done (← writeGpr core (Field.target word) value)
    | none => return .retire core [.message (.controlReadIgnored control)] 0
  | .controlTo _ control =>
    let value ← readGpr core (Field.target word)
    match unit.setControl? control value with
    | some (unit, update) => return .noted (← updateUnit core unit update)
    | none => return .retire core [.message (.controlWriteIgnored control value)] 0
  | .branch branch =>
    return .done (core.branchIf (unit.condition == branch.sense) branch.likely branch.offset)
  | .load _ _ offset =>
    let address ← effectiveAddress core word offset
    return .load ⟨.word, address, true, .float (Field.target word)⟩
  | .store _ _ offset =>
    let address ← effectiveAddress core word offset
    return .store ⟨.word, address, true, ← half unit (Field.target word), fullMask .word⟩
  | .operate op =>
    let (unit, update) ← executeFloat unit word op
    return .noted (← updateUnit core unit update)
  | .unimplemented => return .noted (← unimplementedFloat core unit word)

def issueFloat (core : Core) (word : Word) (instr : FloatInstr) : Checked Issue :=
  if !core.unitUsable 1 then return .raise (.unusable 1)
  else
    match core.fpu with
    | some unit => issueFloatOn core unit word instr
    | none => return .done core

/-- Issue an instruction, which was decoded from `word`. -/
def issueInstr (core : Core) (random : Checked Word) (word : Word) (instr : Instr) :
    Checked Issue := do
  let source := Field.source word
  let target := Field.target word
  let destination := Field.destination word
  match instr with
  | .shift op _ _ _ =>
    let value ← shift op (← readGpr core target) (Field.amount word)
    return .done (← writeGpr core destination value)
  | .shiftVariable op _ _ _ =>
    let amount := (← readGpr core source) &&& 0x1f
    let value ← shift op (← readGpr core target) amount.toNat
    return .done (← writeGpr core destination value)
  | .compute op _ _ _ =>
    let value := op.apply (← readGpr core source) (← readGpr core target)
    return .done (← writeGpr core destination value)
  | .computeImmediate op _ _ operand =>
    return .done (← writeGpr core target (op.apply (← readGpr core source) operand))
  | .checked op _ _ _ =>
    match op.apply? (← readGpr core source) (← readGpr core target) with
    | some value => return .done (← writeGpr core destination value)
    | none => return .raise .overflow
  | .checkedImmediate _ _ operand =>
    match CheckedOp.apply? .add (← readGpr core source) operand with
    | some value => return .done (← writeGpr core target value)
    | none => return .raise .overflow
  | .loadUpper _ value => return .done (← writeGpr core target value)
  | .multiply signed _ _ _ =>
    issueProduct core word
      (← wideProduct signed (← readGpr core source) (← readGpr core target))
  | .multiplyAdd signed _ _ _ =>
    let product ← wideProduct signed (← readGpr core source) (← readGpr core target)
    issueProduct core word (core.registers.product + product)
  | .divide signed _ _ => issueDivide core word signed
  | .moveFromHi _ => return .done (← writeGpr core destination core.registers.hi)
  | .moveToHi _ =>
    let hi ← readGpr core source
    return .done { core with registers := { core.registers with hi } }
  | .moveFromLo _ => return .done (← writeGpr core destination core.registers.lo)
  | .moveToLo _ =>
    let lo ← readGpr core source
    return .done { core with registers := { core.registers with lo } }
  | .jump link region =>
    let next := core.branchTo (core.jumpTarget region)
    return .done (← if link then writeGpr next 31 core.linkAddress else pure next)
  | .jumpRegister link _ =>
    let next := core.branchTo (← readGpr core source)
    return .done (← if link.isSome then writeGpr next destination core.linkAddress else pure next)
  | .branch condition likely link offset =>
    let next := core.branchIf (← holds core word condition) likely offset
    return .done (← if link then writeGpr next 31 core.linkAddress else pure next)
  | .load op _ _ offset =>
    return .load (loadOf core op target (← effectiveAddress core word offset))
  | .store op _ _ offset =>
    let address ← effectiveAddress core word offset
    return .store (← storeOf core op (← readGpr core target) address)
  | .syscall => return .raise .syscall
  | .breakpoint => return .raise .breakpoint
  | .nothing => return .done core
  | .system op => issueSystem core random word op
  | .float instr => issueFloat core word instr
  | .foreign _ branch => issueForeign core word branch
  | .reserved => return .raise (.reserved word)

def issue (core : Core) (random : Checked Word) (word : Word) : Checked Issue :=
  issueInstr core random word (decode word)

end R3000.Strict

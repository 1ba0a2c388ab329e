import R3000.Proofs.ByteLanes
import R3000.Proofs.Checks
import R3000.Proofs.RandomSlots
import R3000.Reset

/-!
# The core with checks

What instructions do to the registers, done with checks: register numbers are cut out of the
instruction word as numbers without a bound, and become indices where a register is selected;
products, quotients and shift amounts are looked at. Every part passes its checks on every core
and then gives what the unchecked part gives.

The one check that is not passed by the form of the operands alone is that of the counter, which
has to have been started in the past.
-/
namespace R3000.Strict

/-! ### Fields -/

/-- To move a word down and mask it is to cut bits out of it. -/
theorem toNat_cut (word : Word) (position : Nat) {width : Nat} (inside : width ≤ 32) :
    (word >>> position &&& BitVec.ofNat 32 (2 ^ width - 1)).toNat =
      (word.extractLsb' position width).toNat := by
  have low : 2 ^ width ≤ 2 ^ 32 := Nat.pow_le_pow_right (by decide) inside
  have positive : 0 < 2 ^ width := Nat.two_pow_pos width
  have mask : (BitVec.ofNat 32 (2 ^ width - 1)).toNat = 2 ^ width - 1 := by
    rw [BitVec.toNat_ofNat]
    exact Nat.mod_eq_of_lt (by omega)
  rw [BitVec.toNat_and, BitVec.toNat_ushiftRight, mask, BitVec.extractLsb'_toNat]
  exact Nat.and_two_pow_sub_one_eq_mod _ width

/-- Five bits of a word. -/
def field (word : Word) (position : Nat) : Nat := (word >>> position &&& 0x1f).toNat

theorem field_eq (word : Word) (position : Nat) :
    field word position = (word.extractLsb' position 5).toNat :=
  toNat_cut word position (by decide : 5 ≤ 32)

namespace Field

def source (word : Word) : Nat := field word 21
def target (word : Word) : Nat := field word 16
def destination (word : Word) : Nat := field word 11
def amount (word : Word) : Nat := field word 6

/-- The number of the coprocessor. -/
def unit (word : Word) : Nat := (word >>> 26 &&& 3).toNat

@[simp] theorem source_eq (word : Word) : source word = (Encoding.rs word).val := field_eq word 21
@[simp] theorem target_eq (word : Word) : target word = (Encoding.rt word).val := field_eq word 16

@[simp] theorem destination_eq (word : Word) : destination word = (Encoding.rd word).val :=
  field_eq word 11

@[simp] theorem amount_eq (word : Word) : amount word = (Encoding.fd word).val := field_eq word 6

@[simp] theorem unit_eq (word : Word) : unit word = (Encoding.unitNum word).val :=
  toNat_cut word 26 (by decide : 2 ≤ 32)

end Field

/-! ### General registers -/

/-- The register that the low five bits of a number select. -/
def register (number : Nat) : Checked RegNum := within 32 (number &&& 0x1f)

@[simp] theorem register_eq (number : Nat) : register number = .ok (Registers.select number) := by
  have cut : number &&& 0x1f = number % 32 := Nat.and_two_pow_sub_one_eq_mod number 5
  rw [register, cut]
  exact within_of_lt (Nat.mod_lt number (by decide))

theorem select_val (reg : RegNum) : Registers.select reg.val = reg := by
  exact Fin.ext (Nat.mod_eq_of_lt reg.isLt)

def readGpr (core : Core) (number : Nat) : Checked Word := return core.reg (← register number)

/-- Only the number zero itself is not written to. -/
def writeGpr (core : Core) (number : Nat) (value : Word) : Checked Core := do
  if number = 0 then return core
  let reg ← register number
  let gpr := core.registers.gpr.set reg value reg.val_lt
  return { core with registers := { core.registers with gpr } }

@[simp] theorem readGpr_val (core : Core) (reg : RegNum) :
    readGpr core reg.val = .ok (core.reg reg) := by
  simp only [readGpr, register_eq, select_val, ok_bind, pure_eq_ok]

theorem writeGpr_eq (core : Core) (number : Nat) (value : Word) :
    writeGpr core number value =
      .ok { core with registers := core.registers.writeNumbered number value } := by
  simp only [writeGpr, Registers.writeNumbered, register_eq, ok_bind, pure_eq_ok]
  split <;> rfl

@[simp] theorem writeGpr_val (core : Core) (reg : RegNum) (value : Word) :
    writeGpr core reg.val value = .ok (core.setReg reg value) := by
  -- To be register zero is to have the number zero, once a number has been cut to five bits.
  have zero : reg.val = 0 ↔ reg = 0 := ⟨fun zero => Fin.ext zero, congrArg Fin.val⟩
  simp only [writeGpr_eq, Registers.writeNumbered, select_val, zero, Core.setReg, Registers.write]

/-! ### Operations on words -/

def shift (op : ShiftOp) (value : Word) (amount : Nat) : Checked Word :=
  match op with
  | .left => shiftLeft value amount
  | .rightLogical => shiftRight value amount
  | .rightArithmetic => shiftSigned value amount

theorem shift_of_lt (op : ShiftOp) {value : Word} {amount : Nat} (bound : amount < 32) :
    shift op value amount = .ok (op.apply value amount) := by
  cases op with
  | left => exact shiftLeft_of_lt bound
  | rightLogical => exact shiftRight_of_lt bound
  | rightArithmetic => exact shiftSigned_of_lt bound

def wideProduct (signed : Bool) (a b : Word) : Checked (BitVec 64) :=
  if signed then multiply (a.signExtend 64) (b.signExtend 64) true
  else multiply (a.setWidth 64) (b.setWidth 64) false

@[simp] theorem wideProduct_eq (signed : Bool) (a b : Word) :
    wideProduct signed a b = .ok (R3000.wideProduct signed a b) := by
  obtain ⟨unsignedFits, signedFits⟩ := multiply_words a b
  cases signed with
  | false => exact unsignedFits
  | true => exact signedFits

def holds (core : Core) (word : Word) : Condition → Checked Bool
  | .equal _ _ =>
    return (← readGpr core (Field.source word)) == (← readGpr core (Field.target word))
  | .notEqual _ _ =>
    return (← readGpr core (Field.source word)) != (← readGpr core (Field.target word))
  | .lessEqualZero _ => return (← readGpr core (Field.source word)).sle 0
  | .greaterZero _ => return (0 : Word).slt (← readGpr core (Field.source word))
  | .negative _ => return (← readGpr core (Field.source word)).msb
  | .notNegative _ => return !(← readGpr core (Field.source word)).msb

/-- How far a part of an unaligned word is shifted: by eight for every lane, which is counted from
the low end or from the other one. -/
def laneShift (mirrored : Bool) (address : Word) : Nat :=
  ((if mirrored then (address &&& 3) ^^^ 3 else address &&& 3) <<< 3).toNat

theorem laneShift_eq (mirrored : Bool) (address : Word) :
    laneShift mirrored address = 8 * if mirrored then 3 - lane address else lane address := by
  have low := lane_lt address
  cases mirrored with
  | false =>
    change ((address &&& 3) <<< 3).toNat = 8 * lane address
    rw [BitVec.toNat_shiftLeft, Nat.shiftLeft_eq]
    change lane address * 2 ^ 3 % 2 ^ 32 = 8 * lane address
    omega
  | true =>
    change (((address &&& 3) ^^^ 3) <<< 3).toNat = 8 * (3 - lane address)
    rw [BitVec.toNat_shiftLeft, Nat.shiftLeft_eq, toNat_mirror_lane]
    omega

theorem laneShift_lt (mirrored : Bool) (address : Word) : laneShift mirrored address < 32 := by
  have low := lane_lt address
  rw [laneShift_eq]
  split <;> omega

def leftShift (order : ByteOrder) (address : Word) : Nat := laneShift (order = .little) address
def rightShift (order : ByteOrder) (address : Word) : Nat := laneShift (order = .big) address

@[simp] theorem leftShift_eq (order : ByteOrder) (address : Word) :
    leftShift order address = R3000.leftShift order address := by
  rw [leftShift, laneShift_eq]
  cases order with
  | little =>
    change _ = 8 * ((address &&& 3) ^^^ 3).toNat
    rw [toNat_mirror_lane]
    rfl
  | big => rfl

@[simp] theorem rightShift_eq (order : ByteOrder) (address : Word) :
    rightShift order address = R3000.rightShift order address := by
  rw [rightShift, laneShift_eq]
  cases order with
  | little => rfl
  | big =>
    change _ = 8 * ((address &&& 3) ^^^ 3).toNat
    rw [toNat_mirror_lane]
    rfl

theorem leftShift_lt (order : ByteOrder) (address : Word) : R3000.leftShift order address < 32 := by
  rw [← leftShift_eq]
  exact laneShift_lt _ address

theorem rightShift_lt (order : ByteOrder) (address : Word) :
    R3000.rightShift order address < 32 := by
  rw [← rightShift_eq]
  exact laneShift_lt _ address

/-! ### System control -/

/-- The counter through the upper slots, from the time and the time at which it was started. -/
def random (time start : BitVec 64) : Checked Word := do
  let (_, elapsed) ← divide (time - start) 56 false
  subtract 63 (elapsed.setWidth 32)

/-- The counter never passes below the slots it counts through, as long as the clock holds the
time. -/
theorem random_eq {cpu : Cpu} (started : cpu.randomOrigin ≤ cpu.cycles)
    (room : cpu.cycles < 2 ^ 64) :
    random (BitVec.ofNat 64 cpu.cycles) (BitVec.ofNat 64 cpu.randomOrigin) =
      .ok (BitVec.ofNat 32 cpu.random.val) := by
  -- The difference may wrap. As the counter was started in the past, it is the time since then.
  have elapsed : (((BitVec.ofNat 64 cpu.cycles - BitVec.ofNat 64 cpu.randomOrigin).umod
      56).setWidth 32).toNat = (cpu.cycles - cpu.randomOrigin) % 56 := by
    rw [BitVec.toNat_setWidth, BitVec.umod_eq, BitVec.toNat_umod, BitVec.toNat_sub,
      BitVec.toNat_ofNat, BitVec.toNat_ofNat]
    have modulus : (56 : BitVec 64).toNat = 56 := rfl
    rw [modulus]
    omega
  rw [random, divide_of_ne false (by decide)]
  simp only [Bool.false_eq_true, if_false, ok_bind]
  generalize (((BitVec.ofNat 64 cpu.cycles - BitVec.ofNat 64 cpu.randomOrigin).umod
    56).setWidth 32 : Word) = passed at elapsed
  have total : (63 : Word).toNat = 63 := rfl
  rw [subtract_of_le (by omega)]
  congr 1
  apply BitVec.eq_of_toNat_eq
  rw [BitVec.toNat_sub, BitVec.toNat_ofNat, total, elapsed]
  simp only [Cpu.random]
  omega

/-- A slot of the lookaside buffer, counted modulo their number. -/
def slot (index : Nat) : Checked (Fin 64) := within 64 (index % 64)

@[simp] theorem slot_val (slot : Fin 64) : Strict.slot slot.val = .ok slot := by
  rw [Strict.slot, Nat.mod_eq_of_lt slot.isLt, within_val]

def readSystem (core : Core) (random : Checked Word) (number : Nat) : Checked Word := do
  if number = SystemControl.randomReg ∧ core.mmu.hasBuffer then return (← random) <<< 8
  return core.system.read (← register number)

theorem readSystem_eq (core : Core) {counter : Checked Word} {random : Fin 64}
    (counts : counter = .ok (BitVec.ofNat 32 random.val)) (number : Nat) :
    readSystem core counter number = .ok (core.readSystem random number) := by
  simp only [readSystem, Core.readSystem, counts, register_eq, ok_bind, pure_eq_ok]
  split <;> rfl

def writeSystem (core : Core) (number : Nat) (value : Word) : Checked (Core × List Note) := do
  if number = SystemControl.statusReg then return core.writeStatus value
  let reg ← register number
  return ({ core with system := core.system.write core.mmu.hasBuffer reg value }, [])

@[simp] theorem writeSystem_eq (core : Core) (number : Nat) (value : Word) :
    writeSystem core number value = .ok (core.writeSystem number value) := by
  simp only [writeSystem, Core.writeSystem, register_eq, ok_bind, pure_eq_ok]
  split <;> rfl

/-- Coprocessors are counted modulo four. -/
theorem and_three (unit : Nat) : unit &&& 3 = unit % 4 := Nat.and_two_pow_sub_one_eq_mod unit 2

/-- The permission to use a coprocessor stands at a place that depends on its number. -/
def unitUsable (core : Core) (unit : Nat) : Checked Bool :=
  return hasAny core.system.status (← shiftLeft Status.cu0 (unit &&& 3))

@[simp] theorem unitUsable_eq (core : Core) (unit : Nat) :
    unitUsable core unit = .ok (core.unitUsable unit) := by
  rw [unitUsable, and_three, shiftLeft_of_lt (by omega)]
  rfl

/-! ### Inputs -/

/-- The bit of an input is only looked for when there is such an input. -/
def setInput (core : Core) (line : Nat) (asserted : Bool) : Checked (Core × List Note) := do
  if 6 ≤ line then return (core, [.message (.inputIgnored line)])
  let bit ← shiftLeft (0x400 : Word) line
  let status := core.system.status
  if asserted then
    let raised := { core with system := core.system.putCause (core.system.cause ||| bit) }
    return (raised, if Status.interruptsEnabled status && hasAny status bit then
      [.event (.interrupt line asserted)] else [])
  return ({ core with system := core.system.putCause (core.system.cause &&& ~~~bit) }, [])

@[simp] theorem setInput_eq (core : Core) (line : Nat) (asserted : Bool) :
    setInput core line asserted = .ok (core.setInput line asserted) := by
  simp only [setInput, Core.setInput]
  by_cases beyond : 6 ≤ line
  · simp only [beyond, if_true, pure_eq_ok]
  · have bit : shiftLeft (0x400 : Word) line = .ok (Cause.inputBit line) :=
      shiftLeft_of_lt (by omega)
    simp only [beyond, if_false, bit, ok_bind, pure_eq_ok]
    split <;> rfl

def condition (core : Core) (unit : Nat) : Checked Bool :=
  return core.conditions.get (← within 4 unit)

@[simp] theorem condition_val (core : Core) (unit : Fin 4) :
    condition core unit.val = .ok (core.condition unit) := by
  simp only [condition, within_val, ok_bind, pure_eq_ok]
  rfl

def setCondition (core : Core) (unit : Nat) (state : Bool) : Checked Core := do
  let ⟨unit, inside⟩ ← within 4 (unit &&& 3)
  return { core with conditions := core.conditions.set unit state inside }

@[simp] theorem setCondition_eq (core : Core) (unit : Nat) (state : Bool) :
    setCondition core unit state = .ok (core.setCondition unit state) := by
  rw [setCondition, and_three, within_of_lt (Nat.mod_lt unit (by decide))]
  rfl

/-! ### Exceptions -/

/-- The number of a register in the dump, from its row and its column. -/
def dumpNumber (row column : BitVec 64) : Checked (BitVec 64) := do
  add (← multiply row 4 false) column

/-- Entering an exception writes a dump of the registers, for which they are numbered. -/
def enter (core : Core) (trap : Trap) : Checked (Core × List Note) := do
  for row in List.range 8 do
    for column in List.range 4 do
      let _ ← dumpNumber (BitVec.ofNat 64 row) (BitVec.ofNat 64 column)
  return core.enter trap

@[simp] theorem enter_eq (core : Core) (trap : Trap) :
    enter core trap = .ok (core.enter trap) := rfl

end R3000.Strict

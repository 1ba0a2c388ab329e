import R3000.Proofs.CheckedCore

/-!
# The floating point unit with checks

The unit has sixteen registers of 64 bits, and instructions name their halves by numbers up to
thirty-one. The index is what remains of such a number after one shift, and it is looked at
whenever a register is read or written.

The arithmetic in between is that of bit patterns, modes and flags, which has nothing to check.
-/
namespace R3000.Strict

/-! ### Registers -/

/-- The pair that a register is a half of. -/
def pairOf (reg : Nat) : Checked (Fin 16) := within 16 (reg >>> 1)

@[simp] theorem pairOf_val (reg : RegNum) : pairOf reg.val = .ok (FloatUnit.pairOf reg) := by
  have half : reg.val >>> 1 = reg.val / 2 := rfl
  have bound := reg.isLt
  rw [pairOf, half, within_of_lt (by omega)]
  rfl

section

variable (unit : FloatUnit) (reg : Nat)

def half : Checked Word := do
  let value := unit.pair (← pairOf reg)
  return if reg % 2 = 1 then FloatUnit.highHalf value else FloatUnit.lowHalf value

def setHalf (word : Word) : Checked FloatUnit := do
  let index ← pairOf reg
  let value := unit.pair index
  return unit.setPair index
    (if reg % 2 = 1 then word ++ FloatUnit.lowHalf value else FloatUnit.highHalf value ++ word)

def low : Checked Word := return FloatUnit.lowHalf (unit.pair (← pairOf reg))

def setLow (word : Word) : Checked FloatUnit := do
  let index ← pairOf reg
  return unit.setPair index (FloatUnit.highHalf (unit.pair index) ++ word)

def double : Checked (BitVec 64) := return unit.pair (← pairOf reg)

def setDouble (value : BitVec 64) : Checked FloatUnit := return unit.setPair (← pairOf reg) value

end

section

variable (unit : FloatUnit) (reg : RegNum)

@[simp] theorem half_val : half unit reg.val = .ok (unit.half reg) := by
  simp only [half, pairOf_val, ok_bind, pure_eq_ok, FloatUnit.half]

@[simp] theorem setHalf_val (word : Word) :
    setHalf unit reg.val word = .ok (unit.setHalf reg word) := by
  simp only [setHalf, pairOf_val, ok_bind, pure_eq_ok, FloatUnit.setHalf]

@[simp] theorem low_val : low unit reg.val = .ok (unit.low reg) := by
  simp only [low, pairOf_val, ok_bind, pure_eq_ok, FloatUnit.low]

@[simp] theorem setLow_val (word : Word) :
    setLow unit reg.val word = .ok (unit.setLow reg word) := by
  simp only [setLow, pairOf_val, ok_bind, pure_eq_ok, FloatUnit.setLow]

@[simp] theorem double_val :
    double unit reg.val = .ok (unit.pair (FloatUnit.pairOf reg)) := by
  simp only [double, pairOf_val, ok_bind, pure_eq_ok]

@[simp] theorem setDouble_val (value : BitVec 64) :
    setDouble unit reg.val value = .ok (unit.setPair (FloatUnit.pairOf reg) value) := by
  simp only [setDouble, pairOf_val, ok_bind, pure_eq_ok]

end

/-! ### Operands and results -/

def operand (unit : FloatUnit) (precision : Precision) (reg : Nat) :
    Checked (BitVec precision.format.width) :=
  match precision with
  | .single => low unit reg
  | .double => double unit reg

def setResult (unit : FloatUnit) (precision : Precision) (reg : Nat)
    (bits : BitVec precision.format.width) : Checked FloatUnit :=
  match precision with
  | .single => setLow unit reg bits
  | .double => setDouble unit reg bits

@[simp] theorem operand_val (unit : FloatUnit) (precision : Precision) (reg : RegNum) :
    operand unit precision reg.val = .ok (unit.operand precision reg) := by
  cases precision with
  | single => exact low_val unit reg
  | double => exact double_val unit reg

@[simp] theorem setResult_val (unit : FloatUnit) (precision : Precision) (reg : RegNum)
    (bits : BitVec precision.format.width) :
    setResult unit precision reg.val bits = .ok (unit.setResult precision reg bits) := by
  cases precision with
  | single => exact setLow_val unit reg bits
  | double => exact setDouble_val unit reg bits

/-- The result is stored, and the register for it looked up, only if it is not dropped. -/
def commit (unit : FloatUnit) (raised : Floating.Flags) (store : FloatUnit → Checked FloatUnit) :
    Checked (FloatUnit × LineUpdate) := do
  if !raised.any then return (← store unit, none)
  let unit := { unit with control31 := FloatControl.record unit.control31 raised }
  let pending := FloatControl.pending unit.control31
  return (← if pending then pure unit else store unit, some pending)

theorem commit_eq (unit : FloatUnit) (raised : Floating.Flags)
    {store : FloatUnit → Checked FloatUnit} {stored : FloatUnit → FloatUnit}
    (stores : ∀ unit, store unit = .ok (stored unit)) :
    commit unit raised store = .ok (unit.commit raised stored) := by
  -- By whether a flag was raised, and then by whether an enabled one is pending.
  simp only [commit, FloatUnit.commit, stores, ok_bind, pure_eq_ok]
  split
  · rfl
  · split <;> rfl

def finish (unit : FloatUnit) (precision : Precision) (reg : Nat)
    (answer : Floating.Answer precision.format.width) : Checked (FloatUnit × LineUpdate) :=
  commit unit answer.flags (setResult · precision reg answer.bits)

@[simp] theorem finish_val (unit : FloatUnit) (precision : Precision) (reg : RegNum)
    (answer : Floating.Answer precision.format.width) :
    finish unit precision reg.val answer = .ok (unit.finish precision reg answer) :=
  commit_eq unit answer.flags fun unit => setResult_val unit precision reg answer.bits

/-! ### Execution -/

/-- Execute an operation that was decoded from a word, on the registers that the word names. -/
def executeFloat (unit : FloatUnit) (word : Word) (op : FloatOp) :
    Checked (FloatUnit × LineUpdate) := do
  let fd := Field.amount word
  let fs := Field.destination word
  let ft := Field.target word
  match op with
  | .binary op precision _ _ _ =>
    let a ← operand unit precision fs
    let b ← operand unit precision ft
    finish unit precision fd (unit.binary op precision.format unit.mode a b)
  | .abs precision _ _ =>
    finish unit precision fd
      (unit.arithmetic.abs precision.format unit.mode (← operand unit precision fs))
  | .neg precision _ _ =>
    finish unit precision fd
      (unit.arithmetic.neg precision.format unit.mode (← operand unit precision fs))
  | .move .single _ _ => return (← setHalf unit fd (← half unit fs), none)
  | .move .double _ _ => return (← setDouble unit fd (← double unit fs), none)
  | .widen _ _ =>
    finish unit .double fd
      (unit.arithmetic.convert .single .double unit.mode (← operand unit .single fs))
  | .narrow _ _ =>
    finish unit .single fd
      (unit.arithmetic.convert .double .single unit.mode (← operand unit .double fs))
  | .toWord precision _ _ =>
    let answer := unit.arithmetic.toWord precision.format unit.mode (← operand unit precision fs)
    commit unit answer.flags (setLow · fd answer.bits)
  | .ofWord precision _ _ =>
    finish unit precision fd (unit.arithmetic.ofWord precision.format unit.mode (← low unit fs))
  | .compare precision predicate _ _ =>
    let a ← operand unit precision fs
    let b ← operand unit precision ft
    return unit.compareWith predicate (unit.arithmetic.compare precision.format a b)

/-- The registers of an operation are those that the fields of a word name. -/
def ReadsFloat (word : Word) : FloatOp → Prop
  | .binary _ _ fd fs ft =>
    fd = Encoding.fd word ∧ fs = Encoding.rd word ∧ ft = Encoding.rt word
  | .abs _ fd fs | .neg _ fd fs | .move _ fd fs | .widen fd fs | .narrow fd fs
  | .toWord _ fd fs | .ofWord _ fd fs => fd = Encoding.fd word ∧ fs = Encoding.rd word
  | .compare _ _ fs ft => fs = Encoding.rd word ∧ ft = Encoding.rt word

theorem executeFloat_eq (unit : FloatUnit) {word : Word} {op : FloatOp}
    (reads : ReadsFloat word op) : executeFloat unit word op = .ok (unit.execute op) := by
  cases op with
  | binary op precision fd fs ft =>
    obtain ⟨rfl, rfl, rfl⟩ := reads
    simp only [executeFloat, Field.amount_eq, Field.destination_eq, Field.target_eq, operand_val,
      ok_bind, finish_val, FloatUnit.execute]
  | compare precision predicate fs ft =>
    obtain ⟨rfl, rfl⟩ := reads
    simp only [executeFloat, Field.destination_eq, Field.target_eq, operand_val, ok_bind,
      pure_eq_ok, FloatUnit.execute]
  | move precision fd fs =>
    obtain ⟨rfl, rfl⟩ := reads
    cases precision with
    | single =>
      simp only [executeFloat, Field.amount_eq, Field.destination_eq, half_val, setHalf_val,
        ok_bind, pure_eq_ok, FloatUnit.execute]
    | double =>
      simp only [executeFloat, Field.amount_eq, Field.destination_eq, double_val, setDouble_val,
        ok_bind, pure_eq_ok, FloatUnit.execute]
  | toWord precision fd fs =>
    obtain ⟨rfl, rfl⟩ := reads
    simp only [executeFloat, Field.amount_eq, Field.destination_eq, operand_val, ok_bind]
    exact commit_eq unit _ fun unit => setLow_val unit (Encoding.fd word) _
  | ofWord precision fd fs =>
    obtain ⟨rfl, rfl⟩ := reads
    simp only [executeFloat, Field.amount_eq, Field.destination_eq, low_val, ok_bind, finish_val,
      FloatUnit.execute]
  | abs precision fd fs | neg precision fd fs | widen fd fs | narrow fd fs =>
    obtain ⟨rfl, rfl⟩ := reads
    simp only [executeFloat, Field.amount_eq, Field.destination_eq, operand_val, ok_bind,
      finish_val, FloatUnit.execute]

/-! ### The unit in the core -/

def updateUnit (core : Core) (unit : FloatUnit) (update : LineUpdate) :
    Checked (Core × List Note) :=
  let core := { core with fpu := some unit }
  match update with
  | some level => setInput core unit.irq level
  | none => return (core, [])

@[simp] theorem updateUnit_eq (core : Core) (unit : FloatUnit) (update : LineUpdate) :
    updateUnit core unit update = .ok (core.updateUnit unit update) := by
  cases update with
  | none => rfl
  | some level => exact setInput_eq _ unit.irq level

def unimplementedFloat (core : Core) (unit : FloatUnit) (word : Word) :
    Checked (Core × List Note) := do
  let (next, notes) ← updateUnit core unit.unimplemented (some true)
  let own := [.message (.fpuUnimplemented word core.pc), .event (.fpuUnimplemented word)]
  return (next, own ++ notes)

@[simp] theorem unimplementedFloat_eq (core : Core) (unit : FloatUnit) (word : Word) :
    unimplementedFloat core unit word = .ok (core.unimplementedFloat unit word) := by
  simp only [unimplementedFloat, updateUnit_eq, ok_bind, pure_eq_ok, Core.unimplementedFloat]

end R3000.Strict

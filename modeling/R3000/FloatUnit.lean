import R3000.Config
import R3000.Instruction.Basic
import R3000.Floating.Arithmetic

/-!
# The floating point unit

Sixteen registers of 64 bits. Each also serves as a pair of 32-bit registers:
the even number names its low half, the odd number its high half. Moves and
loads use the halves; arithmetic on single precision uses the low half of a pair
whatever the parity of the register number.

Control register 31 holds the rounding mode, and for each exception a sticky
flag, an enable bit and a cause bit. The causes of an operation are added to it
and set the flags of all causes present. A result is dropped when the operation
raised something and an enabled cause is then present. An enabled cause, or the
cause of an unimplemented operation, asks for an interrupt.

The arithmetic itself is not part of the unit: it is built with a library, which
stays the same from then on.
-/
namespace R3000

abbrev Precision.format : Precision → Floating.Format
  | .single => .single
  | .double => .double

/-! ### Control register 31 -/

namespace FloatControl

def flagInvalid : Word := 0x00000040
def flags : Word := 0x0000007c
def enables : Word := 0x00000f80
def causeInexact : Word := 0x00001000
def causeUnderflow : Word := 0x00002000
def causeOverflow : Word := 0x00004000
def causeDivByZero : Word := 0x00008000
def causeInvalid : Word := 0x00010000
def causes : Word := 0x0001f000
def causeUnimplemented : Word := 0x00020000
def condition : Word := 0x00800000

/-- The rounding mode that the register selects. -/
def roundingMode (control : Word) : Floating.Mode :=
  match control.extractLsb' 0 2 with
  | 0#2 => .nearestEven
  | 1#2 => .towardZero
  | 2#2 => .towardPositive
  | 3#2 => .towardNegative

/-- The cause bits for the exceptions an operation raised. -/
def causesOf (raised : Floating.Flags) : Word :=
  (if raised.inexact then causeInexact else 0)
    ||| (if raised.underflow then causeUnderflow else 0)
    ||| (if raised.overflow then causeOverflow else 0)
    ||| (if raised.divByZero then causeDivByZero else 0)
    ||| (if raised.invalid then causeInvalid else 0)

/-- Every cause that is present sets its flag. -/
def withFlags (control : Word) : Word := control ||| ((control &&& causes) >>> 10 &&& flags)

/-- A cause whose enable bit is set is present, or that of an unimplemented operation. -/
def pending (control : Word) : Bool :=
  hasAny control causeUnimplemented || hasAny ((control &&& causes) >>> 5) (control &&& enables)

/-- Add the exceptions an operation raised. -/
def record (control : Word) (raised : Floating.Flags) : Word :=
  withFlags (control ||| causesOf raised)

end FloatControl

/-! ### Registers -/

structure FloatUnit where
  arithmetic : Floating.Arithmetic
  pairs : Vector (BitVec 64) 16
  revision : Word
  control30 : Word
  control31 : Word
  irq : Nat

/-- The level an operation wants on the interrupt line, if it wants to set it. -/
abbrev LineUpdate := Option Bool

namespace FloatUnit

def ofAttachment (arithmetic : Floating.Arithmetic) (attachment : FpuAttachment) : FloatUnit where
  arithmetic
  pairs := Vector.replicate 16 0
  revision := attachment.revision
  control30 := 0
  control31 := 0
  irq := attachment.irq

/-- The pair that a register is a half of. -/
def pairOf (reg : RegNum) : Fin 16 := ⟨reg / 2, by omega⟩

def pair (unit : FloatUnit) (index : Fin 16) : BitVec 64 := unit.pairs[index]

def setPair (unit : FloatUnit) (index : Fin 16) (value : BitVec 64) : FloatUnit :=
  { unit with pairs := unit.pairs.set index value }

def lowHalf (value : BitVec 64) : Word := value.extractLsb' 0 32
def highHalf (value : BitVec 64) : Word := value.extractLsb' 32 32

/-- The register as a half of its pair. -/
def half (unit : FloatUnit) (reg : RegNum) : Word :=
  let value := unit.pair (pairOf reg)
  if reg.val % 2 = 1 then highHalf value else lowHalf value

def setHalf (unit : FloatUnit) (reg : RegNum) (word : Word) : FloatUnit :=
  let value := unit.pair (pairOf reg)
  unit.setPair (pairOf reg)
    (if reg.val % 2 = 1 then word ++ lowHalf value else highHalf value ++ word)

/-- The operand of single precision arithmetic, and a word operand. -/
def low (unit : FloatUnit) (reg : RegNum) : Word := lowHalf (unit.pair (pairOf reg))

def setLow (unit : FloatUnit) (reg : RegNum) (word : Word) : FloatUnit :=
  unit.setPair (pairOf reg) (highHalf (unit.pair (pairOf reg)) ++ word)

theorem pair_setPair (unit : FloatUnit) (index other : Fin 16) (value : BitVec 64) :
    (unit.setPair index value).pair other = if other = index then value else unit.pair other := by
  unfold setPair pair
  by_cases same : other = index
  · subst same
    simp
  · have apart : index.val ≠ other.val := fun equal => same (Fin.ext equal.symm)
    simp [same, apart]

@[simp] theorem lowHalf_append (high low : Word) : lowHalf (high ++ low) = low := by
  apply BitVec.eq_of_getLsbD_eq
  intro index bound
  unfold lowHalf
  rw [BitVec.getLsbD_extractLsb', getLsbD_join]
  simp [bound]

@[simp] theorem highHalf_append (high low : Word) : highHalf (high ++ low) = high := by
  apply BitVec.eq_of_getLsbD_eq
  intro index bound
  unfold highHalf
  rw [BitVec.getLsbD_extractLsb', getLsbD_join]
  simp [bound]

/-- The halves are registers of their own. -/
theorem half_setHalf (unit : FloatUnit) (reg other : RegNum) (word : Word) :
    (unit.setHalf reg word).half other = if other = reg then word else unit.half other := by
  simp only [half, setHalf, pair_setPair]
  by_cases same : other = reg
  · subst same
    split <;> simp
  · by_cases paired : pairOf other = pairOf reg
    · -- two registers of one pair differ in parity
      have parity : other.val % 2 ≠ reg.val % 2 := by
        intro equal
        have quotient : other.val / 2 = reg.val / 2 := congrArg Fin.val paired
        exact same (Fin.ext (by omega))
      by_cases odd : reg.val % 2 = 1
      · have even : other.val % 2 ≠ 1 := by omega
        simp [same, paired, odd, even]
      · have later : other.val % 2 = 1 := by omega
        simp [same, paired, odd, later]
    · simp [same, paired]

def condition (unit : FloatUnit) : Bool := hasAny unit.control31 FloatControl.condition

def mode (unit : FloatUnit) : Floating.Mode := FloatControl.roundingMode unit.control31

/-! ### Control registers -/

def control? (unit : FloatUnit) (reg : RegNum) : Option Word :=
  match reg with
  | 0 => some unit.revision
  | 30 => some unit.control30
  | 31 => some unit.control31
  | _ => none

/-- Write a control register; the identification stays as it is. -/
def setControl? (unit : FloatUnit) (reg : RegNum) (word : Word) :
    Option (FloatUnit × LineUpdate) :=
  match reg with
  | 0 => some (unit, none)
  | 30 => some ({ unit with control30 := word }, none)
  | 31 => some ({ unit with control31 := word }, some (FloatControl.pending word))
  | _ => none

/-- An operation that the unit does not know always asks for an interrupt. -/
def unimplemented (unit : FloatUnit) : FloatUnit :=
  { unit with control31 := unit.control31 ||| FloatControl.causeUnimplemented }

/-! ### Operations -/

/-- The unit after an operation that raised `raised`, with its result stored by
`store` unless the result is dropped. -/
def commit (unit : FloatUnit) (raised : Floating.Flags) (store : FloatUnit → FloatUnit) :
    FloatUnit × LineUpdate :=
  if !raised.any then (store unit, none)
  else
    let unit := { unit with control31 := FloatControl.record unit.control31 raised }
    let pending := FloatControl.pending unit.control31
    (if pending then unit else store unit, some pending)

/-- The operand of an operation in the given precision. -/
def operand (unit : FloatUnit) (precision : Precision) (reg : RegNum) :
    BitVec precision.format.width :=
  match precision with
  | .single => unit.low reg
  | .double => unit.pair (pairOf reg)

/-- Store the result of an operation in the given precision. -/
def setResult (unit : FloatUnit) (precision : Precision) (reg : RegNum)
    (bits : BitVec precision.format.width) : FloatUnit :=
  match precision with
  | .single => unit.setLow reg bits
  | .double => unit.setPair (pairOf reg) bits

/-- Commit an operation with a floating point result. -/
def finish (unit : FloatUnit) (precision : Precision) (fd : RegNum)
    (answer : Floating.Answer precision.format.width) : FloatUnit × LineUpdate :=
  unit.commit answer.flags (·.setResult precision fd answer.bits)

/-- Commit an operation with a word as its result. -/
def finishWord (unit : FloatUnit) (fd : RegNum) (answer : Floating.Answer 32) :
    FloatUnit × LineUpdate :=
  unit.commit answer.flags (·.setLow fd answer.bits)

/-! ### Comparisons -/

/-- The low three bits of a predicate ask for unordered, equal and less. -/
def holds (predicate : BitVec 4) : Option Ordering → Bool
  | none => predicate.getLsbD 0
  | some .eq => predicate.getLsbD 1
  | some .lt => predicate.getLsbD 2
  | some .gt => false

/-- Set the condition. Unordered operands set the flag of invalid operations, and
its cause when the high bit of the predicate asks for that. -/
def compareControl (control : Word) (predicate : BitVec 4) (order : Option Ordering) : Word :=
  let control :=
    if holds predicate order then control ||| FloatControl.condition
    else control &&& ~~~FloatControl.condition
  if order.isSome then control
  else if predicate.getLsbD 3 then
    control ||| FloatControl.flagInvalid ||| FloatControl.causeInvalid
  else control ||| FloatControl.flagInvalid

def compareWith (unit : FloatUnit) (predicate : BitVec 4) (order : Option Ordering) :
    FloatUnit × LineUpdate :=
  let control := compareControl unit.control31 predicate order
  let asks := order.isNone && predicate.getLsbD 3 && FloatControl.pending control
  ({ unit with control31 := control }, if asks then some true else none)

/-! ### Execution -/

def binary (unit : FloatUnit) (op : FloatBinary) (format : Floating.Format) (mode : Floating.Mode)
    (a b : BitVec format.width) : Floating.Answer format.width :=
  match op with
  | .add => unit.arithmetic.add format mode a b
  | .sub => unit.arithmetic.sub format mode a b
  | .mul => unit.arithmetic.mul format mode a b
  | .div => unit.arithmetic.div format mode a b

def execute (unit : FloatUnit) : FloatOp → FloatUnit × LineUpdate
  | .binary op precision fd fs ft =>
    unit.finish precision fd
      (unit.binary op precision.format unit.mode (unit.operand precision fs)
        (unit.operand precision ft))
  | .abs precision fd fs =>
    unit.finish precision fd
      (unit.arithmetic.abs precision.format unit.mode (unit.operand precision fs))
  | .neg precision fd fs =>
    unit.finish precision fd
      (unit.arithmetic.neg precision.format unit.mode (unit.operand precision fs))
  | .move .single fd fs => (unit.setHalf fd (unit.half fs), none)
  | .move .double fd fs => (unit.setPair (pairOf fd) (unit.pair (pairOf fs)), none)
  | .widen fd fs =>
    unit.finish .double fd
      (unit.arithmetic.convert .single .double unit.mode (unit.operand .single fs))
  | .narrow fd fs =>
    unit.finish .single fd
      (unit.arithmetic.convert .double .single unit.mode (unit.operand .double fs))
  | .toWord precision fd fs =>
    unit.finishWord fd
      (unit.arithmetic.toWord precision.format unit.mode (unit.operand precision fs))
  | .ofWord precision fd fs =>
    unit.finish precision fd (unit.arithmetic.ofWord precision.format unit.mode (unit.low fs))
  | .compare precision predicate fs ft =>
    unit.compareWith predicate
      (unit.arithmetic.compare precision.format (unit.operand precision fs)
        (unit.operand precision ft))

end FloatUnit

end R3000

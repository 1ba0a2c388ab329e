import R3000.Host
import R3000.Ram

/-!
# Operations of the floating point unit

An instruction word for the unit names a format and a function. When the processor has the unit and
may use it, the word changes the unit and may drive the interrupt input that the unit is wired to,
and does nothing else.
-/
namespace R3000

open Floating

/-! ### Words for the unit -/

/-- The value of the format field that selects a precision. -/
def Precision.code : Precision → BitVec 5
  | .single => 0x10
  | .double => 0x11

theorem decode_floatFormat {word : Word} {precision : Precision}
    (coprocessor : Encoding.opcode word = 0x11)
    (selected : Encoding.unitOp word = precision.code) :
    decode word = .float (match decodeFloatFormat precision word with
      | some op => .operate op
      | none => .unimplemented) := by
  cases precision <;> simp only [decode, coprocessor, decodeFloat, decodeFloatOp, selected,
    Precision.code] <;> rfl

/-- An instruction word names a format and a function of the unit, which the processor has and may
use. -/
structure Cpu.Dispatches (cpu : Cpu) (word : Word) (format : BitVec 5) (function : BitVec 6)
    (unit : FloatUnit) : Prop where
  coprocessor : Encoding.opcode word = 0x11
  selected : Encoding.unitOp word = format
  function : Encoding.funct word = function
  usable : cpu.core.unitUsable 1 = true
  present : cpu.core.fpu = some unit

namespace Cpu.Dispatches

variable {cpu : Cpu} {word : Word} {precision : Precision} {function : BitVec 6} {unit : FloatUnit}

theorem decode_of_found (dispatches : cpu.Dispatches word precision.code function unit)
    {op : FloatOp} (found : decodeFloatFormat precision word = some op) :
    decode word = .float (.operate op) := by
  rw [decode_floatFormat dispatches.coprocessor dispatches.selected, found]

theorem decode_abs (dispatches : cpu.Dispatches word precision.code 0x05 unit) :
    decode word = .float (.operate (.abs precision (Encoding.fd word) (Encoding.fs word))) := by
  apply dispatches.decode_of_found
  unfold decodeFloatFormat
  rw [dispatches.function]
  cases precision <;> rfl

theorem decode_neg (dispatches : cpu.Dispatches word precision.code 0x07 unit) :
    decode word = .float (.operate (.neg precision (Encoding.fd word) (Encoding.fs word))) := by
  apply dispatches.decode_of_found
  unfold decodeFloatFormat
  rw [dispatches.function]
  cases precision <;> rfl

theorem decode_toWord (dispatches : cpu.Dispatches word precision.code 0x24 unit) :
    decode word = .float (.operate (.toWord precision (Encoding.fd word) (Encoding.fs word))) := by
  apply dispatches.decode_of_found
  unfold decodeFloatFormat
  rw [dispatches.function]
  cases precision <;> rfl

/-- A number of single precision is converted to double precision. -/
theorem decode_widen (dispatches : cpu.Dispatches word Precision.single.code 0x21 unit) :
    decode word = .float (.operate (.widen (Encoding.fd word) (Encoding.fs word))) := by
  apply dispatches.decode_of_found
  unfold decodeFloatFormat
  rw [dispatches.function]
  rfl

/-- A number of double precision is converted to single precision. -/
theorem decode_narrow (dispatches : cpu.Dispatches word Precision.double.code 0x20 unit) :
    decode word = .float (.operate (.narrow (Encoding.fd word) (Encoding.fs word))) := by
  apply dispatches.decode_of_found
  unfold decodeFloatFormat
  rw [dispatches.function]
  rfl

/-- The functions from 0x30 on are the comparisons. Their low bits are the predicate. -/
theorem decode_compare (dispatches : cpu.Dispatches word precision.code function unit)
    (comparison : 0x30 ≤ function) :
    decode word = .float (.operate (.compare precision (function.extractLsb' 0 4)
      (Encoding.fs word) (Encoding.ft word))) := by
  apply dispatches.decode_of_found
  unfold decodeFloatFormat
  rw [dispatches.function]
  split
  case h_11 => exact if_pos comparison
  -- The functions before it are below those of the comparisons.
  all_goals exact absurd comparison (by decide)

/-- A word is converted to double precision. -/
theorem decode_ofWord (dispatches : cpu.Dispatches word 0x14 0x21 unit) :
    decode word = .float (.operate (.ofWord .double (Encoding.fd word) (Encoding.fs word))) := by
  have converts : decodeFloatWord word =
      some (.ofWord .double (Encoding.fd word) (Encoding.fs word)) := by
    unfold decodeFloatWord
    rw [dispatches.function]
    rfl
  simp only [decode, dispatches.coprocessor, decodeFloat, dispatches.selected, decodeFloatOp,
    converts]
  rfl

end Cpu.Dispatches

/-! ### Results -/

namespace FloatUnit

theorem control31_setResult (unit : FloatUnit) (precision : Precision) (reg : RegNum)
    (bits : BitVec precision.format.width) :
    (unit.setResult precision reg bits).control31 = unit.control31 := by
  cases precision <;> rfl

/-- A result that nothing was raised for is stored, and the interrupt is left alone. -/
theorem finish_exact (unit : FloatUnit) (precision : Precision) (fd : RegNum)
    (bits : BitVec precision.format.width) :
    unit.finish precision fd ⟨bits, .none⟩ = (unit.setResult precision fd bits, none) := rfl

/-- A result is the operand of the next operation on its register. -/
theorem operand_setResult (unit : FloatUnit) (precision : Precision) (reg : RegNum)
    (bits : BitVec precision.format.width) :
    (unit.setResult precision reg bits).operand precision reg = bits := by
  cases precision with
  | single => simp [setResult, operand, setLow, low, pair_setPair]
  | double => simp [setResult, operand, pair_setPair]

/-- A single result leaves the high half of its pair. -/
theorem highHalf_setResult (unit : FloatUnit) (fd : RegNum) (bits : Word) :
    highHalf ((unit.setResult .single fd bits).pair (pairOf fd)) =
      highHalf (unit.pair (pairOf fd)) := by
  change highHalf ((unit.setPair (pairOf fd) _).pair (pairOf fd)) = _
  rw [pair_setPair, if_pos rfl, highHalf_append]

end FloatUnit

/-! ### The processor -/

namespace Core

/-- A unit that is there can be named. -/
theorem fpu_eq_getD {core : Core} (equipped : core.fpu.isSome = true) (other : FloatUnit) :
    core.fpu = some (core.fpu.getD other) := by
  obtain ⟨unit, present⟩ := Option.isSome_iff_exists.mp equipped
  rw [present, Option.getD_some]

end Core

namespace Cpu

variable {β : Type} [Bus β]

/-- An operation of a unit that may be used puts back the unit and drives its input. -/
theorem execute_float {cpu : Cpu} {word : Word} {op : FloatOp} {unit : FloatUnit}
    (decoded : decode word = .float (.operate op)) (usable : cpu.core.unitUsable 1 = true)
    (present : cpu.core.fpu = some unit) (bus : β) :
    cpu.execute bus word =
      ⟨{ cpu with core :=
          (cpu.core.updateUnit (unit.execute op).1 (unit.execute op).2).1 }, bus,
        (cpu.core.updateUnit (unit.execute op).1 (unit.execute op).2).2⟩ := by
  have issued : cpu.core.issue cpu.random word =
      .noted (cpu.core.updateUnit (unit.execute op).1 (unit.execute op).2) := by
    simp only [Core.issue, decoded, Core.issueInstr, Core.issueFloat, usable, present,
      Core.issueFloatOn]
    rfl
  simp only [execute, issued]
  rfl

/-- The processor with another state of its unit. -/
def withUnit (cpu : Cpu) (unit : FloatUnit) : Cpu :=
  { cpu with core := { cpu.core with fpu := some unit } }

/-- An operation that does not concern the interrupt changes the unit only. -/
theorem execute_operate {cpu : Cpu} {bus : β} {word : Word} {op : FloatOp}
    {unit after : FloatUnit} (decoded : decode word = .float (.operate op))
    (usable : cpu.core.unitUsable 1 = true) (present : cpu.core.fpu = some unit)
    (silent : unit.execute op = (after, none)) :
    cpu.execute bus word = ⟨cpu.withUnit after, bus, []⟩ := by
  rw [execute_float decoded usable present, silent]
  rfl

/-- A unit with an operand in the registers 2 and 3. All exceptions are enabled, and results are
rounded downwards. -/
def unitHolding (operand : BitVec 64) : FloatUnit :=
  let unit := FloatUnit.ofAttachment .software (.ofRevision 0x0300)
  ({ unit with control31 := 0xf83 }.setPair (FloatUnit.pairOf 2) operand).setPair
    (FloatUnit.pairOf 6) 0xdeadbeefcafef00d

theorem pair_unitHolding (operand : BitVec 64) :
    (unitHolding operand).pair 3 = 0xdeadbeefcafef00d := by
  rw [unitHolding, FloatUnit.pair_setPair]
  rfl

/-- A program may use the unit. -/
def cpuUsing : Cpu := ((Cpu.build (.ofModel .r3081)).1.setSystemReg 12 0x20000000).1

theorem unitUsable_withUnit (unit : FloatUnit) :
    (cpuUsing.withUnit unit).core.unitUsable 1 = true := by
  have usable : cpuUsing.core.unitUsable 1 = true := by decide +kernel
  exact usable

def cpuHolding (operand : BitVec 64) : Cpu := cpuUsing.withUnit (unitHolding operand)

def noStore : Ram := Ram.zeroed 0 0 .big

end Cpu

end R3000

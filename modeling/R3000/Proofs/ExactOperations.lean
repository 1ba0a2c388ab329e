import R3000.Proofs.SignOperations
import R3000.Proofs.WriteBack

/-!
# Operations that raise nothing

An answer that raises nothing is stored, whatever the control register has enabled and whatever an
earlier operation has left in it, and the control register and the interrupt input stay as they
are. Negation is such an operation on every pattern that denotes a number. It inverts the sign bit,
so it is its own inverse.
-/
namespace R3000

open Floating

namespace Cpu

variable {β : Type} [Bus β]

/-- An instruction word computes a result without raising anything, and all that it does is to store
that result: it leaves the control register of the unit alone, the interrupt inputs, and every other
register. -/
structure StoresExactly (cpu : Cpu) (bus : β) (word : Word) (unit : FloatUnit)
    (precision : Precision) (fd : RegNum) (bits : BitVec precision.format.width) : Prop where
  quiet : ∃ op, decode word = .float (.operate op) ∧
    unit.computation? op = some ⟨precision, fd, bits, .none⟩
  executed : cpu.execute bus word = ⟨cpu.withUnit (unit.setResult precision fd bits), bus, []⟩
  control : (unit.setResult precision fd bits).control31 = unit.control31

/-- A computation that raises nothing is stored. -/
theorem Dispatches.storesExactly {cpu : Cpu} {word : Word} {format : BitVec 5}
    {function : BitVec 6} {unit : FloatUnit}
    (dispatches : cpu.Dispatches word format function unit) (bus : β) {op : FloatOp}
    (decoded : decode word = .float (.operate op)) {precision : Precision} {fd : RegNum}
    {bits : BitVec precision.format.width}
    (quiet : unit.computation? op = some ⟨precision, fd, bits, .none⟩) :
    cpu.StoresExactly bus word unit precision fd bits where
  quiet := ⟨op, decoded, quiet⟩
  executed := by
    have silent : unit.execute op = (unit.setResult precision fd bits, none) :=
      FloatUnit.execute_of_computation quiet
    exact execute_operate decoded dispatches.usable dispatches.present silent
  control := unit.control31_setResult precision fd bits

/-! ### Negation -/

/-- In every direction of rounding the negation of a number is its pattern with the sign bit
inverted, and nothing is raised. -/
theorem Dispatches.negates {cpu : Cpu} {word : Word} {precision : Precision} {unit : FloatUnit}
    {a : BitVec precision.format.width}
    (dispatches : cpu.Dispatches word precision.code 0x07 unit) (bus : β)
    (multiplies : unit.arithmetic.MultipliesCorrectly)
    (operand : unit.operand precision (Encoding.fs word) = a)
    (number : precision.format.isNan a = false) :
    cpu.StoresExactly bus word unit precision (Encoding.fd word)
      (a ^^^ BitVec.intMin precision.format.width) := by
  apply dispatches.storesExactly bus dispatches.decode_neg
  have negated := multiplies.neg_eq unit.mode number
  rw [← operand] at negated ⊢
  exact congrArg (fun answer => some (Computation.mk precision (Encoding.fd word) answer)) negated

/-- Negation inverts the sign bit of every pattern that denotes a number, whatever the control
register holds. It does nothing else: a single result leaves the high half of the destination.
Wherever the result is the operand of another negation by the same library, that one puts back the
pattern that the first had, in whatever direction results are rounded then. -/
theorem neg_inverts_sign {cpu : Cpu} (bus : β) {word : Word} {precision : Precision}
    {unit : FloatUnit} {a : BitVec precision.format.width}
    (dispatches : cpu.Dispatches word precision.code 0x07 unit)
    (multiplies : unit.arithmetic.MultipliesCorrectly)
    (operand : unit.operand precision (Encoding.fs word) = a)
    (number : precision.format.isNan a = false) :
    ∃ inverted, inverted = a ^^^ BitVec.intMin precision.format.width ∧
      cpu.StoresExactly bus word unit precision (Encoding.fd word) inverted ∧
      (unit.setResult precision (Encoding.fd word) inverted).operand precision
        (Encoding.fd word) = inverted ∧
      (precision = .single →
        FloatUnit.highHalf ((unit.setResult precision (Encoding.fd word) inverted).pair
            (FloatUnit.pairOf (Encoding.fd word))) =
          FloatUnit.highHalf (unit.pair (FloatUnit.pairOf (Encoding.fd word)))) ∧
      ∀ (later : Cpu) (memory : β) (again : Word) (held : FloatUnit),
        later.Dispatches again precision.code 0x07 held → held.arithmetic = unit.arithmetic →
        held.operand precision (Encoding.fs again) = inverted →
        later.StoresExactly memory again held precision (Encoding.fd again) a := by
  refine ⟨_, rfl, dispatches.negates bus multiplies operand number,
    unit.operand_setResult precision _ _, ?_, ?_⟩
  · rintro rfl
    exact unit.highHalf_setResult _ _
  · intro later memory again held dispatches same operand
    rw [← same] at multiplies
    have counts := (precision.format.isNan_xor_intMin a).trans number
    have restored := dispatches.negates memory multiplies operand counts
    rwa [Format.xor_intMin_twice] at restored

/-- The smallest subnormal number is negated into the register pair 3, and from there back into the
pair 1. -/
theorem neg_inverts_sign_least :
    ((cpuHolding 0xcafef00d00000001).execute noStore 0x46001187).cpu.fpr 3 =
        some 0xdeadbeef80000001 ∧
      (((cpuHolding 0xcafef00d00000001).execute noStore 0x46001187).cpu.execute noStore
        0x46003087).cpu.fpr 1 = some 0xcafef00d00000001 := by
  have first : (cpuHolding 0xcafef00d00000001).Dispatches 0x46001187 Precision.single.code 0x07
      (unitHolding 0xcafef00d00000001) :=
    ⟨by decide, by decide, by decide, unitUsable_withUnit _, rfl⟩
  have operand : (unitHolding 0xcafef00d00000001).operand .single 2 = 0x00000001 := by decide
  have number : Format.single.isNan 0x00000001 = false := by decide
  obtain ⟨inverted, value, stores, result, -, again⟩ :=
    neg_inverts_sign noStore first Arithmetic.software_multipliesCorrectly operand number
  have second : (cpuUsing.withUnit
      ((unitHolding 0xcafef00d00000001).setResult .single 6 inverted)).Dispatches 0x46003087
      Precision.single.code 0x07
      ((unitHolding 0xcafef00d00000001).setResult .single 6 inverted) :=
    ⟨by decide, by decide, by decide, unitUsable_withUnit _, rfl⟩
  have restored := again _ noStore _ _ second rfl result
  have executed : (cpuHolding 0xcafef00d00000001).execute noStore 0x46001187 =
      ⟨cpuUsing.withUnit ((unitHolding 0xcafef00d00000001).setResult .single 6 inverted), noStore,
        []⟩ := stores.executed
  rw [executed, restored.executed, value]
  exact ⟨by decide +kernel, by decide +kernel⟩

end Cpu

end R3000

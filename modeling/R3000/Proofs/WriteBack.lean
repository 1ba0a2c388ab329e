import R3000.Proofs.FloatInterrupt
import R3000.Proofs.UnitOperations

/-!
# Results that are dropped

A computational operation finds an answer: a pattern for its destination, and the exceptions it
raises. An answer that raises nothing is stored. An answer that raises something has its causes
added to the control register, and is dropped if the register then asks for an interrupt.

The register asks for one because of an exception that the operation has raised and that is enabled,
or because it has asked for one before. So an enabled exception of the operation itself always
drops the result; but a cause that an earlier operation has left behind drops it as well, once the
operation raises anything at all.
-/
namespace R3000

open Floating

/-! ### What an operation raises -/

namespace Floating.Flags

/-- The exceptions by number, in the order in which the control register has them. -/
def raises (flags : Flags) : Nat → Bool
  | 0 => flags.inexact
  | 1 => flags.underflow
  | 2 => flags.overflow
  | 3 => flags.divByZero
  | 4 => flags.invalid
  | _ => false

theorem raises_of_le (flags : Flags) {number : Nat} (beyond : 5 ≤ number) :
    flags.raises number = false := by
  obtain ⟨rest, rfl⟩ := Nat.exists_eq_add_of_le' beyond
  rfl

theorem any_iff (flags : Flags) :
    flags.any = true ↔ ∃ number < 5, flags.raises number = true := by
  constructor
  · intro present
    simp only [any, Bool.or_eq_true] at present
    rcases present with (((inexact | underflow) | overflow) | divByZero) | invalid
    · exact ⟨0, by omega, inexact⟩
    · exact ⟨1, by omega, underflow⟩
    · exact ⟨2, by omega, overflow⟩
    · exact ⟨3, by omega, divByZero⟩
    · exact ⟨4, by omega, invalid⟩
  · rintro ⟨number, bound, raised⟩
    obtain rfl | rfl | rfl | rfl | rfl :
        number = 0 ∨ number = 1 ∨ number = 2 ∨ number = 3 ∨ number = 4 := by omega
    all_goals simp_all [any, raises]

end Floating.Flags

namespace FloatControl

/-- One of the exceptions that an operation raised has its enable bit set. -/
def enablesAny (control : Word) (raised : Flags) : Bool :=
  (List.range 5).any fun number => raised.raises number && control.getLsbD (7 + number)

theorem enablesAny_iff (control : Word) (raised : Flags) :
    enablesAny control raised = true ↔
      ∃ number < 5, raised.raises number = true ∧ control.getLsbD (7 + number) = true := by
  simp [enablesAny]

/-- Only what is raised can be enabled. -/
theorem any_of_enablesAny {control : Word} {raised : Flags}
    (enabled : enablesAny control raised = true) : raised.any = true := by
  obtain ⟨number, bound, present, -⟩ := (enablesAny_iff control raised).mp enabled
  exact raised.any_iff.mpr ⟨number, bound, present⟩

/-! ### The control register after an operation -/

theorem getLsbD_causesOf (raised : Flags) {index : Nat} (bound : index < 32) :
    (causesOf raised).getLsbD index = (decide (12 ≤ index) && raised.raises (index - 12)) := by
  have single (present : Bool) {mask : Word} (place : Nat)
      (only : ∀ index < 32, mask.getLsbD index = decide (index = place)) :
      (if present then mask else 0).getLsbD index = (present && decide (index = place)) := by
    cases present with
    | false => simp
    | true => simpa using only index bound
  simp only [causesOf, BitVec.getLsbD_or]
  rw [single raised.inexact 12 (by decide),
    single raised.underflow 13 (by decide),
    single raised.overflow 14 (by decide),
    single raised.divByZero 15 (by decide),
    single raised.invalid 16 (by decide)]
  obtain low | rfl | rfl | rfl | rfl | rfl | far :
      index < 12 ∨ index = 12 ∨ index = 13 ∨ index = 14 ∨ index = 15 ∨ index = 16 ∨ 16 < index := by
    omega
  · have apart : index ≠ 12 ∧ index ≠ 13 ∧ index ≠ 14 ∧ index ≠ 15 ∧ index ≠ 16 := by omega
    have under : ¬12 ≤ index := by omega
    simp [apart, under]
  · simp [Flags.raises]
  · simp [Flags.raises]
  · simp [Flags.raises]
  · simp [Flags.raises]
  · simp [Flags.raises]
  · have apart : index ≠ 12 ∧ index ≠ 13 ∧ index ≠ 14 ∧ index ≠ 15 ∧ index ≠ 16 := by omega
    simp [apart, raised.raises_of_le (by omega : 5 ≤ index - 12)]

/-- Recording what an operation raised adds its causes, and flags below the enable bits. -/
theorem getLsbD_record (control : Word) (raised : Flags) {index : Nat} (low : 7 ≤ index)
    (bound : index < 32) :
    (record control raised).getLsbD index =
      (control.getLsbD index || (causesOf raised).getLsbD index) := by
  have outside : ∀ index < 32, 7 ≤ index → flags.getLsbD index = false := by decide
  simp [record, withFlags, outside index bound low]

/-- The register asks for an interrupt after an operation if it has asked for one before, or if
what the operation raised is enabled. -/
theorem pending_record (control : Word) (raised : Flags) :
    pending (record control raised) = (pending control || enablesAny control raised) := by
  have enable {number : Nat} (bound : number < 5) :
      (record control raised).getLsbD (7 + number) = control.getLsbD (7 + number) := by
    have under : ¬12 ≤ 7 + number := by omega
    rw [getLsbD_record _ _ (by omega) (by omega), getLsbD_causesOf _ (by omega)]
    simp [under]
  have cause {number : Nat} (bound : number < 5) :
      (record control raised).getLsbD (12 + number) =
        (control.getLsbD (12 + number) || raised.raises number) := by
    rw [getLsbD_record _ _ (by omega) (by omega), getLsbD_causesOf _ (by omega)]
    simp
  have unimplemented : (record control raised).getLsbD 17 = control.getLsbD 17 := by
    rw [getLsbD_record _ _ (by omega) (by omega), getLsbD_causesOf _ (by omega)]
    simp [Flags.raises]
  rw [Bool.eq_iff_iff, Bool.or_eq_true, pending_iff, pending_iff, enablesAny_iff, unimplemented,
    or_assoc]
  apply or_congr_right
  -- An enabled cause is an old one or a new one.
  constructor
  · rintro ⟨number, bound, present, enabled⟩
    rw [cause bound, Bool.or_eq_true] at present
    rw [enable bound] at enabled
    rcases present with old | new
    · exact .inl ⟨number, bound, old, enabled⟩
    · exact .inr ⟨number, bound, new, enabled⟩
  · rintro (⟨number, bound, old, enabled⟩ | ⟨number, bound, new, enabled⟩)
    · exact ⟨number, bound, by rw [cause bound, old, Bool.true_or], (enable bound).trans enabled⟩
    · exact ⟨number, bound, by rw [cause bound, new, Bool.or_true], (enable bound).trans enabled⟩

end FloatControl

/-! ### Computational operations -/

/-- What an operation on numbers computes: an answer for a destination. A word is stored like a
number of single precision. -/
structure Computation where
  precision : Precision
  fd : RegNum
  answer : Answer precision.format.width
  deriving DecidableEq

namespace FloatUnit

/-- What an operation computes when results are rounded in a given direction. Moves and comparisons
compute nothing. -/
def computationIn (unit : FloatUnit) (mode : Mode) : FloatOp → Option Computation
  | .binary op precision fd fs ft =>
    some ⟨precision, fd, unit.binary op precision.format mode (unit.operand precision fs)
      (unit.operand precision ft)⟩
  | .abs precision fd fs =>
    some ⟨precision, fd, unit.arithmetic.abs precision.format mode (unit.operand precision fs)⟩
  | .neg precision fd fs =>
    some ⟨precision, fd, unit.arithmetic.neg precision.format mode (unit.operand precision fs)⟩
  | .widen fd fs =>
    some ⟨.double, fd, unit.arithmetic.convert .single .double mode (unit.operand .single fs)⟩
  | .narrow fd fs =>
    some ⟨.single, fd, unit.arithmetic.convert .double .single mode (unit.operand .double fs)⟩
  | .toWord precision fd fs =>
    some ⟨.single, fd, unit.arithmetic.toWord precision.format mode (unit.operand precision fs)⟩
  | .ofWord precision fd fs =>
    some ⟨precision, fd, unit.arithmetic.ofWord precision.format mode (unit.low fs)⟩
  | .move _ _ _ | .compare _ _ _ _ => none

/-- What an operation computes in the direction that the control register selects. -/
def computation? (unit : FloatUnit) (op : FloatOp) : Option Computation :=
  unit.computationIn unit.mode op

/-- Store the answer of a computation in its destination. -/
def store (unit : FloatUnit) (computation : Computation) : FloatUnit :=
  unit.setResult computation.precision computation.fd computation.answer.bits

/-- A computational operation commits its answer. -/
theorem execute_of_computation {unit : FloatUnit} {op : FloatOp} {computation : Computation}
    (computes : unit.computation? op = some computation) :
    unit.execute op = unit.commit computation.answer.flags (·.store computation) := by
  cases op with
  | move precision fd fs => cases computes
  | compare precision predicate fs ft => cases computes
  | _ =>
    cases computes
    rfl

/-- The result of a computation is dropped. -/
def drops (unit : FloatUnit) (raised : Flags) : Bool :=
  raised.any &&
    (FloatControl.pending unit.control31 || FloatControl.enablesAny unit.control31 raised)

/-- The control register after an operation. -/
def controlAfter (unit : FloatUnit) (raised : Flags) : Word :=
  if raised.any then FloatControl.record unit.control31 raised else unit.control31

/-- The registers after a computation, and the control register. -/
theorem commit_eq (unit : FloatUnit) (computation : Computation) :
    (unit.commit computation.answer.flags (·.store computation)).1 =
      { unit with
        pairs :=
          if unit.drops computation.answer.flags then unit.pairs else (unit.store computation).pairs
        control31 := unit.controlAfter computation.answer.flags } := by
  obtain ⟨precision, fd, bits, raised⟩ := computation
  have stored (control : Word) : ({ unit with control31 := control }.setResult precision fd bits) =
      { unit.setResult precision fd bits with control31 := control } := by
    cases precision <;> rfl
  have same : (unit.setResult precision fd bits).control31 = unit.control31 := by
    cases precision <;> rfl
  cases any : raised.any with
  | false =>
    simp only [commit, drops, controlAfter, store, any, Bool.not_false, if_true, Bool.false_and,
      Bool.false_eq_true, if_false]
    cases precision <;> rfl
  | true =>
    simp only [commit, drops, controlAfter, store, any, Bool.not_true, Bool.true_and,
      Bool.false_eq_true, if_true, if_false, FloatControl.pending_record]
    cases FloatControl.pending unit.control31 || FloatControl.enablesAny unit.control31 raised with
    | true => rfl
    | false => cases precision <;> rfl

end FloatUnit

namespace Core

theorem fpu_updateUnit (core : Core) (unit : FloatUnit) (update : LineUpdate) :
    (core.updateUnit unit update).1.fpu = some unit := by
  cases update with
  | none => rfl
  | some level => exact fpu_setInput _ _ _

end Core

namespace Cpu

variable {β : Type} [Bus β]

/-- When the result of a computation is dropped: if the operation raised something, and raised an
exception whose enable bit is set or found an interrupt asked for. So it is its own enabled
exceptions that drop the result, except where it raises only others and the causes of earlier
operations ask for an interrupt. -/
theorem drops_result {cpu : Cpu} (bus : β) {word : Word} {op : FloatOp} {unit : FloatUnit}
    {computation : Computation} (decoded : decode word = .float (.operate op))
    (usable : cpu.core.unitUsable 1 = true) (present : cpu.core.fpu = some unit)
    (computes : unit.computation? op = some computation) :
    ∃ (after : FloatUnit) (dropped : Bool), (cpu.execute bus word).cpu.core.fpu = some after ∧
      after.pairs = (if dropped then unit.pairs else (unit.store computation).pairs) ∧
      (dropped = true ↔ computation.answer.flags.any = true ∧
        (FloatControl.enablesAny unit.control31 computation.answer.flags = true ∨
          FloatControl.pending unit.control31 = true)) ∧
      ((dropped = true ↔
          FloatControl.enablesAny unit.control31 computation.answer.flags = true) ↔
        (computation.answer.flags.any = true → FloatControl.pending unit.control31 = true →
          FloatControl.enablesAny unit.control31 computation.answer.flags = true)) := by
  have committed := congrArg Prod.fst (FloatUnit.execute_of_computation computes)
  rw [FloatUnit.commit_eq] at committed
  have own := @FloatControl.any_of_enablesAny unit.control31 computation.answer.flags
  refine ⟨_, unit.drops computation.answer.flags, ?_, congrArg FloatUnit.pairs committed, ?_, ?_⟩
  · rw [execute_float decoded usable present]
    exact Core.fpu_updateUnit _ _ _
  · rw [FloatUnit.drops, Bool.and_eq_true, Bool.or_eq_true, or_comm]
  · rw [FloatUnit.drops, Bool.and_eq_true, Bool.or_eq_true]
    constructor
    · intro only something before
      exact only.mp ⟨something, .inl before⟩
    · intro only
      constructor
      · rintro ⟨something, before | enabled⟩
        · exact only something before
        · exact enabled
      · intro enabled
        exact ⟨own enabled, .inr enabled⟩

/-- Invalid operations are enabled and their cause is left behind, as by CTC1. Then the numbers one
and three are put into the register pairs 1 and 2. -/
def staleCause : List Operation :=
  [.setSystemReg 12 0x20000000, .setGpr 8 0x10800, .execute 0x44c8f800, .setFpr 1 0x3f800000,
    .setFpr 2 0x40400000, .setFpr 3 0xdeadbeefcafef00d]

def afterStale : Cpu := (Cpu.build (.ofModel .r3081)).1.operateAll noMemory staleCause

def unitStale : FloatUnit := afterStale.core.fpu.getD (.ofAttachment .software (.ofRevision 0))

/-- A third, which is inexact. -/
def third : Computation := ⟨.single, 6, 0x3eaaaaab, { inexact := true }⟩

/-- The inexact third is dropped because of the invalid operation before it. -/
theorem drops_result_stale :
    ∃ after, (afterStale.execute noMemory 0x46041183).cpu.core.fpu = some after ∧
      after.pairs = unitStale.pairs := by
  have decoded : decode 0x46041183 = .float (.operate (.binary .div .single 6 2 4)) := by decide
  have usable : afterStale.core.unitUsable 1 = true := by decide +kernel
  have present : afterStale.core.fpu = some unitStale := Core.fpu_eq_getD (by decide +kernel) _
  have computes : unitStale.computation? (.binary .div .single 6 2 4) = some third := by
    decide +kernel
  have pending : FloatControl.pending unitStale.control31 = true := by decide +kernel
  obtain ⟨after, dropped, executed, pairs, why, -⟩ :=
    drops_result noMemory decoded usable present computes
  have lost : dropped = true := why.mpr ⟨rfl, .inr pending⟩
  rw [lost] at pairs
  exact ⟨after, executed, pairs⟩

/-- Nothing that the division raises is enabled, and yet its destination is left as it was. -/
theorem not_drops_own_only :
    decode 0x46041183 = .float (.operate (.binary .div .single 6 2 4)) ∧
      afterStale.core.fpu = some unitStale ∧
      unitStale.computation? (.binary .div .single 6 2 4) = some third ∧
      FloatControl.enablesAny unitStale.control31 third.answer.flags = false ∧
      (afterStale.execute noMemory 0x46041183).cpu.fpr 3 = some 0xdeadbeefcafef00d := by
  refine ⟨by decide, Core.fpu_eq_getD ?_ _, ?_, ?_, ?_⟩
  all_goals decide +kernel

end Cpu

end R3000

import R3000.Proofs.SignOperations
import R3000.Proofs.StickyControl

/-!
# Comparisons

The unit asks its library for the order of two numbers. Patterns that denote numbers are ordered as
magnitudes with signs, in which both zeros are the same. So the outcome of a comparison can be read
off the patterns: either one of them denotes no number, or they are compared as signed magnitudes.
-/
namespace R3000

open Floating

namespace Floating.Format

variable {format : Format}

/-! ### The four relations -/

section

variable (format) (a b : BitVec format.width)

/-- The patterns denote the same number. -/
def Same : Prop := ¬format.Unordered a b ∧ format.signMagnitude a = format.signMagnitude b

/-- The first pattern denotes the smaller number. -/
def Below : Prop := ¬format.Unordered a b ∧ format.signMagnitude a < format.signMagnitude b

instance : Decidable (format.Same a b) := inferInstanceAs (Decidable (_ ∧ _))

instance : Decidable (format.Below a b) := inferInstanceAs (Decidable (_ ∧ _))

end

variable {a b : BitVec format.width}

theorem unordered_comm : format.Unordered b a ↔ format.Unordered a b := or_comm

theorem same_comm : format.Same b a ↔ format.Same a b := by
  rw [Same, Same, unordered_comm, eq_comm]

/-- Just one of the four relations holds between two patterns. -/
theorem relations_exclusive (a b : BitVec format.width) :
    [decide (format.Unordered a b), decide (format.Same a b), decide (format.Below a b),
      decide (format.Below b a)].count true = 1 := by
  by_cases odd : format.Unordered a b
  · simp [Same, Below, unordered_comm, odd]
  · rcases Int.lt_trichotomy (format.signMagnitude a) (format.signMagnitude b) with
      less | equal | greater
    · have apart := Int.ne_of_lt less
      have against := Int.not_lt.mpr (Int.le_of_lt less)
      simp [Same, Below, unordered_comm, odd, less, apart, against]
    · simp [Same, Below, unordered_comm, odd, equal]
    · have apart := (Int.ne_of_lt greater).symm
      have against := Int.not_lt.mpr (Int.le_of_lt greater)
      simp [Same, Below, unordered_comm, odd, greater, apart, against]

end Floating.Format

namespace Floating.Arithmetic.ComparesNumbers

variable {arithmetic : Arithmetic} {precision : Precision}

theorem compare_isNone (compares : arithmetic.ComparesNumbers)
    (a b : BitVec precision.format.width) :
    (arithmetic.compare precision.format a b).isNone = decide (precision.format.Unordered a b) := by
  rw [compares.compare_eq]
  by_cases odd : precision.format.Unordered a b
  · rw [if_pos odd, decide_eq_true odd]
    rfl
  · rw [if_neg odd, decide_eq_false odd]
    rfl

/-- A predicate asks for three of the relations by its bits. -/
theorem holds_compare (compares : arithmetic.ComparesNumbers) (a b : BitVec precision.format.width)
    (predicate : BitVec 4) :
    FloatUnit.holds predicate (arithmetic.compare precision.format a b) =
      (decide (precision.format.Unordered a b) && predicate.getLsbD 0 ||
        decide (precision.format.Same a b) && predicate.getLsbD 1 ||
        decide (precision.format.Below a b) && predicate.getLsbD 2) := by
  rw [compares.compare_eq]
  by_cases odd : precision.format.Unordered a b
  · simp [FloatUnit.holds, Format.Same, Format.Below, odd]
  · rw [if_neg odd]
    cases compared : cmp (precision.format.signMagnitude a) (precision.format.signMagnitude b) with
    | eq =>
      have equal := (cmp_eq_eq_iff _ _).mp compared
      simp [FloatUnit.holds, Format.Same, Format.Below, odd, equal]
    | lt =>
      have less := (cmp_eq_lt_iff _ _).mp compared
      simp [FloatUnit.holds, Format.Same, Format.Below, odd, less, Int.ne_of_lt less]
    | gt =>
      have greater := (cmp_eq_gt_iff _ _).mp compared
      have against := Int.not_lt.mpr (Int.le_of_lt greater)
      simp [FloatUnit.holds, Format.Same, Format.Below, odd, (Int.ne_of_lt greater).symm, against]

end Floating.Arithmetic.ComparesNumbers

/-! ### Instructions -/

namespace Cpu

variable {β : Type} [Bus β]

/-- A comparison decides by the patterns of its operands. It sets the condition if one of the
relations holds that the low bits of its code ask for, adds the flag of invalid operations if the
operands are unordered, and then their cause as well if the high bit asks for it. No register
changes. The interrupt input is driven high if the cause was added and an interrupt is asked for,
and else left alone. Just one of the relations holds, and only the two strict ones change with the
order of the operands. -/
theorem compares_patterns {cpu : Cpu} (bus : β) {word : Word} {precision : Precision}
    {function : BitVec 6} {unit : FloatUnit} {a b : BitVec precision.format.width}
    (dispatches : cpu.Dispatches word precision.code function unit) (comparison : 0x30 ≤ function)
    (compares : unit.arithmetic.ComparesNumbers)
    (first : unit.operand precision (Encoding.fs word) = a)
    (second : unit.operand precision (Encoding.ft word) = b) :
    ∃ (control : Word) (result : Core × List Note),
      control =
        FloatControl.withCondition unit.control31
          (decide (precision.format.Unordered a b) && function.getLsbD 0 ||
            decide (precision.format.Same a b) && function.getLsbD 1 ||
            decide (precision.format.Below a b) && function.getLsbD 2) |||
        ((if precision.format.Unordered a b then FloatControl.flagInvalid else 0) |||
          (if precision.format.Unordered a b ∧ function.getLsbD 3 = true then
            FloatControl.causeInvalid else 0)) ∧
      result =
        (if function.getLsbD 3 = true ∧ precision.format.Unordered a b ∧
            FloatControl.pending control = true then
          { cpu.core with fpu := some { unit with control31 := control } }.setInput unit.irq true
        else ({ cpu.core with fpu := some { unit with control31 := control } }, [])) ∧
      cpu.execute bus word = ⟨{ cpu with core := result.1 }, bus, result.2⟩ ∧
      [decide (precision.format.Unordered a b), decide (precision.format.Same a b),
        decide (precision.format.Below a b), decide (precision.format.Below b a)].count true = 1 ∧
      (precision.format.Unordered b a ↔ precision.format.Unordered a b) ∧
      (precision.format.Same b a ↔ precision.format.Same a b) := by
  have low {index : Nat} (bound : index < 4) :
      (function.extractLsb' 0 4).getLsbD index = function.getLsbD index := by
    rw [BitVec.getLsbD_extractLsb', decide_eq_true bound, Bool.true_and, Nat.zero_add]
  have executed := execute_float (dispatches.decode_compare comparison) dispatches.usable
    dispatches.present bus
  refine ⟨FloatUnit.compareControl unit.control31 (function.extractLsb' 0 4)
    (unit.arithmetic.compare precision.format a b), _, ?_, ?_, executed, ?_⟩
  · rw [FloatControl.compareControl_eq, compares.holds_compare, compares.compare_isNone,
      low (by omega), low (by omega), low (by omega), low (by omega)]
    simp only [Bool.and_eq_true, decide_eq_true_eq]
  · -- The line follows the control register as the comparison leaves it.
    have asked : unit.execute (.compare precision (function.extractLsb' 0 4)
        (Encoding.fs word) (Encoding.ft word)) =
        unit.compareWith (function.extractLsb' 0 4)
          (unit.arithmetic.compare precision.format a b) := by
      rw [← first, ← second]
      rfl
    rw [asked]
    simp only [FloatUnit.compareWith, compares.compare_isNone, low (by omega : 3 < 4),
      Bool.and_eq_true, decide_eq_true_eq, and_assoc, and_left_comm]
    split <;> rfl
  · exact ⟨Floating.Format.relations_exclusive a b, Floating.Format.unordered_comm,
      Floating.Format.same_comm⟩

/-- Invalid operations are enabled. Then the negative zero and a pattern that denotes no number are
put into the registers 2 and 4. -/
def beforeComparison : Cpu :=
  (Cpu.build (.ofModel .r3081)).1.operateAll noMemory
    [.setSystemReg 12 0x20000000, .setGpr 8 0x800, .execute 0x44c8f800, .setFpr 1 0x80000000,
      .setFpr 2 0x7fc00000]

def unitBefore : FloatUnit :=
  beforeComparison.core.fpu.getD (.ofAttachment .software (.ofRevision 0))

/-- The predicate with all bits holds of the unordered operands and asks for the interrupt. -/
theorem compares_patterns_unordered :
    Format.single.Unordered (unitBefore.operand .single 2) (unitBefore.operand .single 4) ∧
      (beforeComparison.execute noMemory 0x4604103f).cpu.core =
        ({ beforeComparison.core with
          fpu := some { unitBefore with control31 := 0x00810840 } }.setInput 3 true).1 := by
  have dispatches : beforeComparison.Dispatches 0x4604103f Precision.single.code 0x3f unitBefore :=
    ⟨by decide, by decide, by decide, by decide +kernel, Core.fpu_eq_getD (by decide +kernel) _⟩
  have compares : unitBefore.arithmetic.ComparesNumbers := Arithmetic.software_comparesNumbers
  have odd : Format.single.Unordered (unitBefore.operand .single 2)
      (unitBefore.operand .single 4) := by
    decide +kernel
  obtain ⟨control, result, changed, driven, executed, -⟩ :=
    compares_patterns noMemory dispatches (by decide) compares rfl rfl
  have value : control = 0x00810840 := changed.trans (by decide +kernel)
  subst value
  have asks : FloatControl.pending 0x00810840 = true := by decide
  have line : unitBefore.irq = 3 := by decide +kernel
  have high := driven.trans (if_pos ⟨by decide, odd, asks⟩)
  rw [line] at high
  exact ⟨odd, (congrArg (·.cpu.core) executed).trans (congrArg Prod.fst high)⟩

end Cpu

end R3000

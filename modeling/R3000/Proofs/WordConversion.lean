import R3000.Proofs.SoftwareArithmetic
import R3000.Proofs.StickyControl

/-!
# Conversion to words

A pattern that denotes a finite number has an exact rational value. Its conversion is the integer to
which that value is rounded, if a signed word holds it, and is inexact unless the value is an
integer itself. Everything else is an invalid operand, and becomes an extreme word.
-/
namespace R3000

open Floating

namespace Floating.Arithmetic

/-- A pattern is converted to the integer to which its value is rounded, if it has one and a word
holds that integer. Else it becomes an extreme word: the negative one if it has the sign and denotes
an infinity or a number. -/
theorem ConvertsToIntegers.toWord_eq {arithmetic : Arithmetic}
    (converts : arithmetic.ConvertsToIntegers) (precision : Precision) (mode : Mode)
    (a : BitVec precision.format.width) :
    arithmetic.toWord precision.format mode a =
      if precision.format.isFinite a = true ∧
          -2 ^ 31 ≤ mode.integer (precision.format.value a) ∧
          mode.integer (precision.format.value a) < 2 ^ 31 then
        ⟨BitVec.ofInt 32 (mode.integer (precision.format.value a)),
          { inexact := !(precision.format.value a).isInt }⟩
      else ⟨extremeWord (!precision.format.isNan a && a.msb), { invalid := true }⟩ := by
  have least : 1 < 32 := by decide
  have most : 32 ≤ 128 := by decide
  split
  next fits =>
    obtain ⟨finite, lower, upper⟩ := fits
    rw [toWord, converts.fits precision mode least most finite lower upper]
    rfl
  next beyond =>
    have flags := converts.invalid precision mode least most beyond
    simp only [toWord, flags, if_true, converts.isNan, converts.isNegative]

end Floating.Arithmetic

/-! ### Instructions -/

namespace FloatUnit

/-- A word is stored in the low half of its pair. -/
theorem pair_store (unit : FloatUnit) (fd : RegNum) (answer : Answer 32) (index : Fin 16) :
    (unit.store ⟨.single, fd, answer⟩).pair index =
      if index = pairOf fd then highHalf (unit.pair index) ++ answer.bits else unit.pair index := by
  change (unit.setPair (pairOf fd) _).pair index = _
  rw [pair_setPair]
  split
  next same => rw [same]
  · rfl

/-- Without an interrupt asked for before, a result is dropped if what was raised is enabled. -/
theorem drops_eq_enablesAny {unit : FloatUnit} (raised : Flags)
    (calm : FloatControl.pending unit.control31 = false) :
    unit.drops raised = FloatControl.enablesAny unit.control31 raised := by
  rw [drops, calm, Bool.false_or, Bool.and_eq_right_iff_imp]
  exact FloatControl.any_of_enablesAny

end FloatUnit

namespace Cpu

variable {β : Type} [Bus β]

/-- The conversion to a word saturates. A finite number becomes the integer to which its value is
rounded in the direction that the two low bits of the control register select, if that is a signed
word, and the operation is then inexact unless the value is an integer. Else the operation is
invalid, and its answer is the smallest word for a negative operand, and the greatest for a positive
one and for what is not a number. The answer is put into the low half of the destination unless what
was raised is enabled, and nothing else of the registers changes. -/
theorem converts_saturating {cpu : Cpu} (bus : β) {word : Word} {precision : Precision}
    {unit : FloatUnit} {a : BitVec precision.format.width}
    (dispatches : cpu.Dispatches word precision.code 0x24 unit)
    (converts : unit.arithmetic.ConvertsToIntegers)
    (operand : unit.operand precision (Encoding.fs word) = a)
    (calm : FloatControl.pending unit.control31 = false) :
    ∃ (mode : Mode) (answer : Answer 32) (after : FloatUnit),
      FloatControl.Selects unit.control31 mode ∧
      (if precision.format.isFinite a = true ∧
          -2 ^ 31 ≤ mode.integer (precision.format.value a) ∧
          mode.integer (precision.format.value a) < 2 ^ 31 then
        answer.bits.toInt = mode.integer (precision.format.value a) ∧
          answer.flags = { inexact := !(precision.format.value a).isInt }
      else
        answer.bits = (if precision.format.isNan a = true ∨ a.msb = false then 0x7fffffff
          else 0x80000000) ∧
          answer.flags = { invalid := true }) ∧
      (cpu.execute bus word).cpu.core.fpu = some after ∧
      after.control31 = unit.controlAfter answer.flags ∧
      ∀ index, after.pair index =
        if index = FloatUnit.pairOf (Encoding.fd word) ∧
            FloatControl.enablesAny unit.control31 answer.flags = false then
          FloatUnit.highHalf (unit.pair index) ++ answer.bits
        else unit.pair index := by
  have computes : unit.computation? (.toWord precision (Encoding.fd word) (Encoding.fs word)) =
      some ⟨.single, Encoding.fd word, unit.arithmetic.toWord precision.format unit.mode a⟩ := by
    rw [← operand]
    rfl
  have committed := congrArg Prod.fst (FloatUnit.execute_of_computation computes)
  rw [FloatUnit.commit_eq] at committed
  refine ⟨unit.mode, unit.arithmetic.toWord precision.format unit.mode a, _,
    FloatControl.selects_roundingMode _, ?_, ?_, congrArg FloatUnit.control31 committed, ?_⟩
  · rw [converts.toWord_eq]
    split
    next fits =>
      have lower : -2 ^ (32 - 1) ≤ unit.mode.integer (precision.format.value a) := fits.2.1
      exact ⟨BitVec.toInt_ofInt_eq_self (by decide) lower fits.2.2, rfl⟩
    · refine ⟨?_, rfl⟩
      change extremeWord _ = _
      cases precision.format.isNan a <;> cases a.msb <;> rfl
  · rw [execute_float dispatches.decode_toWord dispatches.usable dispatches.present]
    exact Core.fpu_updateUnit _ _ _
  · intro index
    rw [committed]
    simp only [FloatUnit.drops_eq_enablesAny _ calm]
    cases FloatControl.enablesAny unit.control31
        (unit.arithmetic.toWord precision.format unit.mode a).flags with
    | true => exact (if_neg (by simp)).symm
    | false =>
      simp only [and_true]
      exact unit.pair_store _ _ index

/-- A unit with an operand and a value of the control register. -/
def unitRounding (control : Word) (operand : BitVec 64) : FloatUnit :=
  { unitHolding operand with control31 := control }

def cpuRounding (control : Word) (operand : BitVec 64) : Cpu :=
  cpuUsing.withUnit (unitRounding control operand)

/-- Two and a half is rounded to two, as that is even, and upwards to three. Its negation is rounded
downwards. Rounded toward zero a number that is greater than all words still fits in one. -/
theorem converts_saturating_directions :
    ((cpuRounding 0 0x40200000).execute noStore 0x460011a4).cpu.fpr 3 =
        some 0xdeadbeef00000002 ∧
      ((cpuRounding 2 0x40200000).execute noStore 0x460011a4).cpu.fpr 3 =
        some 0xdeadbeef00000003 ∧
      ((cpuRounding 3 0xc0200000).execute noStore 0x460011a4).cpu.fpr 3 =
        some 0xdeadbeeffffffffd ∧
      ((cpuRounding 1 0x41dfffffffe00000).execute noStore 0x462011a4).cpu.fpr 3 =
        some 0xdeadbeef7fffffff := by
  have stored (word control integer : Word) (pattern : BitVec 64) {precision : Precision}
      {mode : Mode} {a : BitVec precision.format.width}
      (dispatches : (cpuRounding control pattern).Dispatches word precision.code 0x24
        (unitRounding control pattern)) (target : Encoding.fd word = 6)
      (operand : (unitRounding control pattern).operand precision (Encoding.fs word) = a)
      (calm : FloatControl.pending control = false)
      (direction : ∀ other, FloatControl.Selects control other → other = mode)
      (finite : precision.format.isFinite a = true)
      (rounded : mode.integer (precision.format.value a) = integer.toInt)
      (quiet : FloatControl.enablesAny control
        { inexact := !(precision.format.value a).isInt } = false) :
      ((cpuRounding control pattern).execute noStore word).cpu.fpr 3 =
        some (0xdeadbeef#32 ++ integer) := by
    obtain ⟨chosen, answer, after, selects, result, executed, -, stored⟩ :=
      converts_saturating noStore dispatches Arithmetic.software_convertsToIntegers operand calm
    cases direction chosen selects
    have fits : -2 ^ 31 ≤ integer.toInt ∧ integer.toInt < 2 ^ 31 :=
      ⟨integer.le_toInt, integer.toInt_lt⟩
    rw [rounded, if_pos ⟨finite, fits⟩] at result
    obtain ⟨bits, flags⟩ := result
    have kept : (unitRounding control pattern).pair 3 = 0xdeadbeefcafef00d :=
      pair_unitHolding pattern
    have pair := stored 3
    rw [flags, BitVec.eq_of_toInt_eq bits, target, if_pos ⟨rfl, quiet⟩, kept] at pair
    rw [fpr, executed, Option.map_some]
    exact congrArg some pair
  have even : (unitRounding 0 0x40200000).operand .single 2 = 0x40200000 := by decide
  have upward : (unitRounding 2 0x40200000).operand .single 2 = 0x40200000 := by decide
  have downward : (unitRounding 3 0xc0200000).operand .single 2 = 0xc0200000 := by decide
  have truncated : (unitRounding 1 0x41dfffffffe00000).operand .double 2 = 0x41dfffffffe00000 := by
    decide
  have usable := unitUsable_withUnit
  refine ⟨?_, ?_, ?_, ?_⟩
  · exact stored 0x460011a4 0 2 0x40200000 ⟨by decide, by decide, by decide, usable _, rfl⟩
      (by decide) even (by decide) (fun _ selects => selects.nearestEven rfl) (by decide)
      (by decide +kernel) (by decide +kernel)
  · exact stored 0x460011a4 2 3 0x40200000 ⟨by decide, by decide, by decide, usable _, rfl⟩
      (by decide) upward (by decide) (fun _ selects => selects.towardPositive rfl) (by decide)
      (by decide +kernel) (by decide +kernel)
  · exact stored 0x460011a4 3 0xfffffffd 0xc0200000 ⟨by decide, by decide, by decide, usable _, rfl⟩
      (by decide) downward (by decide) (fun _ selects => selects.towardNegative rfl) (by decide)
      (by decide +kernel) (by decide +kernel)
  · exact stored 0x462011a4 1 0x7fffffff 0x41dfffffffe00000
      ⟨by decide, by decide, by decide, usable _, rfl⟩ (by decide) truncated (by decide)
      (fun _ selects => selects.towardZero rfl) (by decide) (by decide +kernel) (by decide +kernel)

end Cpu

end R3000

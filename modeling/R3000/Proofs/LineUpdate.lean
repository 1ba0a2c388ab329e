import R3000.FloatUnit

/-!
# What the floating point unit asks of its interrupt line

An operation of the unit sets the line, clears it, or leaves it as it is. The line is right
afterwards when it was right before: an operation that leaves it alone has not changed what
the control register asks for.

What the register asks for is read off eleven of its bits, five pairs of a cause and its enable
bit and the cause of an unimplemented operation. More of these bits never ask for less.
-/
namespace R3000

/-- Two words have a bit in common. -/
theorem hasAny_iff (word mask : Word) :
    hasAny word mask = true ↔
      ∃ index < 32, word.getLsbD index = true ∧ mask.getLsbD index = true := by
  simp only [hasAny, bne_iff_ne]
  constructor
  · intro nonzero
    apply Classical.byContradiction
    intro apart
    apply nonzero
    apply BitVec.eq_of_getLsbD_eq
    intro index bound
    -- Were both bits set here, the words would have this bit in common.
    have clear : ¬(word.getLsbD index = true ∧ mask.getLsbD index = true) :=
      fun both => apart ⟨index, bound, both⟩
    simpa using clear
  · rintro ⟨index, -, inWord, inMask⟩ zero
    have both : (word &&& mask).getLsbD index = true := by
      rw [BitVec.getLsbD_and, inWord, inMask]
      rfl
    rw [zero] at both
    simp at both

namespace FloatControl

/-- The cause and the enable bit of one of the five exceptions are both set. -/
def Enabled (control : Word) (number : Nat) : Prop :=
  control.getLsbD (12 + number) = true ∧ control.getLsbD (7 + number) = true

/-- What asks for an interrupt, bit by bit. -/
theorem pending_iff (control : Word) :
    pending control = true ↔
      control.getLsbD 17 = true ∨ ∃ number < 5, Enabled control number := by
  have unimplemented : ∀ index < 32, causeUnimplemented.getLsbD index = decide (index = 17) := by
    decide
  have enableBit : ∀ index < 32, enables.getLsbD index = decide (7 ≤ index ∧ index < 12) := by
    decide
  have causeBit : ∀ number < 5, causes.getLsbD (12 + number) = true := by decide
  simp only [pending, Bool.or_eq_true, hasAny_iff]
  apply or_congr
  · constructor
    · rintro ⟨index, bound, present, selected⟩
      rw [unimplemented index bound] at selected
      simpa [of_decide_eq_true selected] using present
    · intro present
      exact ⟨17, by decide, present, by decide⟩
  · constructor
    · rintro ⟨index, bound, cause, enable⟩
      simp only [BitVec.getLsbD_ushiftRight, BitVec.getLsbD_and, Bool.and_eq_true] at cause enable
      have range := enable.2
      rw [enableBit index bound] at range
      obtain ⟨low, high⟩ := of_decide_eq_true range
      have shifted : 12 + (index - 7) = 5 + index := by omega
      have same : 7 + (index - 7) = index := by omega
      refine ⟨index - 7, by omega, ?_, ?_⟩
      · rw [shifted]
        exact cause.1
      · rw [same]
        exact enable.1
    · rintro ⟨number, bound, cause, enable⟩
      have shifted : 5 + (7 + number) = 12 + number := by omega
      have selected : enables.getLsbD (7 + number) = true := by
        rw [enableBit _ (by omega)]
        exact decide_eq_true ⟨by omega, by omega⟩
      refine ⟨7 + number, by omega, ?_, ?_⟩
      · simp [shifted, cause, causeBit number bound]
      · simp [enable, selected]

/-- With more of its bits the register asks for an interrupt all the more. -/
theorem pending_mono {control later : Word}
    (kept : ∀ index < 18, 7 ≤ index → control.getLsbD index = true → later.getLsbD index = true)
    (asks : pending control = true) : pending later = true := by
  rw [pending_iff] at asks ⊢
  rcases asks with unimplemented | ⟨number, bound, cause, enable⟩
  · exact .inl (kept 17 (by omega) (by omega) unimplemented)
  · refine .inr ⟨number, bound, ?_, ?_⟩
    · exact kept _ (by omega) (by omega) cause
    · exact kept _ (by omega) (by omega) enable

theorem pending_congr {control later : Word}
    (same : ∀ index < 18, 7 ≤ index → control.getLsbD index = later.getLsbD index) :
    pending control = pending later := by
  rw [Bool.eq_iff_iff]
  constructor
  · apply pending_mono
    intro index bound low present
    rw [← same index bound low]
    exact present
  · apply pending_mono
    intro index bound low present
    rw [same index bound low]
    exact present

/-- The register with the condition set or cleared. -/
def withCondition (control : Word) (holds : Bool) : Word :=
  if holds then control ||| condition else control &&& ~~~condition

theorem getLsbD_withCondition (control : Word) (holds : Bool) {index : Nat} (bound : index < 32) :
    (withCondition control holds).getLsbD index =
      if index = 23 then holds else control.getLsbD index := by
  have only : ∀ index < 32, condition.getLsbD index = decide (index = 23) := by decide
  cases holds with
  | true =>
    simp only [withCondition, if_true, BitVec.getLsbD_or, only index bound]
    by_cases place : index = 23 <;> simp only [place, decide_true, decide_false, Bool.or_true,
      Bool.or_false, if_true, if_false]
  | false =>
    simp only [withCondition, Bool.false_eq_true, if_false, BitVec.getLsbD_and, BitVec.getLsbD_not,
      only index bound, bound, decide_true, Bool.true_and]
    by_cases place : index = 23 <;> simp only [place, decide_true, decide_false, Bool.not_true,
      Bool.not_false, Bool.and_false, Bool.and_true, if_true, if_false]

/-- A comparison sets or clears the condition. When its operands are unordered it also sets the flag
of invalid operations, and the cause if the predicate asks for that. -/
theorem compareControl_eq (control : Word) (predicate : BitVec 4) (order : Option Ordering) :
    FloatUnit.compareControl control predicate order =
      withCondition control (FloatUnit.holds predicate order) |||
        ((if order.isNone then flagInvalid else 0) |||
          (if order.isNone && predicate.getLsbD 3 then causeInvalid else 0)) := by
  cases order with
  | some order =>
    simp only [FloatUnit.compareControl, withCondition, Option.isSome_some, Option.isNone_some,
      Bool.false_and, Bool.false_eq_true, if_false, if_true]
    exact BitVec.or_zero.symm
  | none =>
    simp only [FloatUnit.compareControl, withCondition, Option.isSome_none, Option.isNone_none,
      Bool.true_and, Bool.false_eq_true, if_false, if_true]
    cases predicate.getLsbD 3 with
    | false => rfl
    | true => exact BitVec.or_assoc _ _ _

end FloatControl

namespace FloatUnit

/-- The line is right after the update of an operation if it was right before. -/
def Settles (unit : FloatUnit) (result : FloatUnit × LineUpdate) : Prop :=
  result.2.getD (FloatControl.pending unit.control31) = FloatControl.pending result.1.control31

theorem settles_of_same {unit next : FloatUnit} (same : next.control31 = unit.control31) :
    unit.Settles (next, none) := by
  simp only [Settles, Option.getD_none, same]

theorem settles_setControl {unit next : FloatUnit} {reg : RegNum} {word : Word}
    {update : LineUpdate} (written : unit.setControl? reg word = some (next, update)) :
    unit.Settles (next, update) := by
  simp only [setControl?] at written
  split at written <;> cases written <;> rfl

theorem settles_unimplemented (unit : FloatUnit) :
    unit.Settles (unit.unimplemented, some true) := by
  have asks : FloatControl.pending unit.unimplemented.control31 = true := by
    rw [FloatControl.pending_iff]
    left
    simp +decide [unimplemented, FloatControl.causeUnimplemented]
  exact asks.symm

theorem settles_commit (unit : FloatUnit) (raised : Floating.Flags)
    (store : FloatUnit → FloatUnit) (kept : ∀ unit, (store unit).control31 = unit.control31) :
    unit.Settles (unit.commit raised store) := by
  simp only [commit]
  split
  · exact settles_of_same (kept unit)
  · -- The update is computed from the register as it is now, whether the result is stored or not.
    simp only [Settles, Option.getD_some]
    split
    · rfl
    · rw [kept]

/-! ### Comparisons -/

/-- A comparison may add the cause of invalid operations to what is read for the line. -/
theorem getLsbD_compareControl (control : Word) (predicate : BitVec 4) (order : Option Ordering)
    {index : Nat} (low : 7 ≤ index) (high : index < 18) :
    (compareControl control predicate order).getLsbD index =
      (control.getLsbD index ||
        (order.isNone && predicate.getLsbD 3 && decide (index = 16))) := by
  have added : ∀ unordered signals : Bool, ∀ index < 18, 7 ≤ index →
      ((if unordered then FloatControl.flagInvalid else 0) |||
        (if unordered && signals then FloatControl.causeInvalid else 0)).getLsbD index =
          (unordered && signals && decide (index = 16)) := by
    decide
  have apart : index ≠ 23 := by omega
  rw [FloatControl.compareControl_eq, BitVec.getLsbD_or, added _ _ index high low,
    FloatControl.getLsbD_withCondition _ _ (by omega), if_neg apart]

theorem settles_compareWith (unit : FloatUnit) (predicate : BitVec 4) (order : Option Ordering) :
    unit.Settles (unit.compareWith predicate order) := by
  have bits := fun {index} => @getLsbD_compareControl unit.control31 predicate order index
  simp only [Settles, compareWith]
  cases signals : order.isNone && predicate.getLsbD 3 with
  | false =>
    have same : FloatControl.pending unit.control31 =
        FloatControl.pending (compareControl unit.control31 predicate order) := by
      apply FloatControl.pending_congr
      intro index high low
      rw [bits low high, signals, Bool.false_and, Bool.or_false]
    simpa using same
  | true =>
    have more : FloatControl.pending unit.control31 = true →
        FloatControl.pending (compareControl unit.control31 predicate order) = true := by
      apply FloatControl.pending_mono
      intro index high low present
      rw [bits low high, present, Bool.true_or]
    -- The line is only ever raised here. That it need not be cleared is what `more` says.
    cases asks : FloatControl.pending (compareControl unit.control31 predicate order) with
    | true => rfl
    | false =>
      have quiet : FloatControl.pending unit.control31 = false := by
        cases before : FloatControl.pending unit.control31 with
        | false => rfl
        | true =>
          rw [more before] at asks
          cases asks
      exact quiet

/-! ### All operations -/

theorem settles_execute (unit : FloatUnit) (op : FloatOp) : unit.Settles (unit.execute op) := by
  -- Storing a result leaves the control register alone.
  have word (fd : RegNum) (bits : Word) (unit : FloatUnit) :
      (unit.setLow fd bits).control31 = unit.control31 := rfl
  have result (precision : Precision) (fd : RegNum) (bits : BitVec precision.format.width)
      (unit : FloatUnit) : (unit.setResult precision fd bits).control31 = unit.control31 := by
    cases precision <;> rfl
  cases op with
  | binary op precision fd fs ft => exact settles_commit _ _ _ (result precision fd _)
  | abs precision fd fs => exact settles_commit _ _ _ (result precision fd _)
  | neg precision fd fs => exact settles_commit _ _ _ (result precision fd _)
  | move precision fd fs => cases precision <;> exact settles_of_same rfl
  | widen fd fs => exact settles_commit _ _ _ (result .double fd _)
  | narrow fd fs => exact settles_commit _ _ _ (result .single fd _)
  | toWord precision fd fs => exact settles_commit _ _ _ (word fd _)
  | ofWord precision fd fs => exact settles_commit _ _ _ (result precision fd _)
  | compare precision predicate fs ft => exact settles_compareWith unit predicate _

end FloatUnit

end R3000

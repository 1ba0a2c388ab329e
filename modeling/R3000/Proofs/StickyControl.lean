import R3000.Proofs.Courses
import R3000.Proofs.WriteBack

/-!
# What changes the control register of the floating point unit

A program writes the register as a whole. Besides that, arithmetic adds the causes of what it raises
and the flags of all causes present, a comparison sets the condition and may report an invalid
operation, and an operation that the unit does not know adds its own cause. No other instruction, no
exception and no operation of the host touches the register.

So between two writes of the register its causes and flags only grow, and whatever is neither a
cause nor a flag nor the condition stays as it is.
-/
namespace R3000

open Floating

namespace FloatControl

/-! ### The rounding direction -/

/-- What the two low bits of the control register say about the direction of rounding. -/
structure Selects (control : Word) (mode : Mode) : Prop where
  nearestEven : control &&& 3 = 0 → mode = .nearestEven
  towardZero : control &&& 3 = 1 → mode = .towardZero
  towardPositive : control &&& 3 = 2 → mode = .towardPositive
  towardNegative : control &&& 3 = 3 → mode = .towardNegative

/-- The low bits are a field of the register. -/
theorem selects_roundingMode (control : Word) : Selects control (roundingMode control) := by
  have field : control.extractLsb' 0 2 = (control &&& 3).setWidth 2 := by
    apply BitVec.eq_of_getLsbD_eq
    intro index bound
    have mask : ∀ index < 2, (3 : Word).getLsbD index = true := by decide
    rw [BitVec.getLsbD_extractLsb', BitVec.getLsbD_setWidth, BitVec.getLsbD_and, mask index bound,
      decide_eq_true bound, Nat.zero_add, Bool.and_true]
  rw [roundingMode, field]
  constructor <;> intro low <;> rw [low] <;> rfl

/-! ### Bits that grow -/

/-- The causes, with that of unimplemented operations, and the flags. -/
def sticking : Word := causeUnimplemented ||| causes ||| flags

/-- All that may change without a write of the register. -/
def changing : Word := sticking ||| condition

/-- From one value of the control register to a later one, without a write between them: the causes
and flags have at most grown, and everything else but the condition is the same. -/
structure Sticky (before after : Word) : Prop where
  grown : before &&& sticking &&& after = before &&& sticking
  same : after &&& ~~~changing = before &&& ~~~changing

/-- Bit by bit. -/
theorem sticky_iff {before after : Word} :
    Sticky before after ↔ ∀ index < 32,
      (sticking.getLsbD index = true → before.getLsbD index = true →
        after.getLsbD index = true) ∧
      (changing.getLsbD index = false →
        after.getLsbD index = before.getLsbD index) := by
  constructor
  · rintro ⟨grown, same⟩ index bound
    constructor
    · intro sticks present
      have bit := congrArg (BitVec.getLsbD · index) grown
      simpa only [BitVec.getLsbD_and, sticks, present, Bool.and_self, Bool.true_and] using bit
    · intro fixed
      have bit := congrArg (BitVec.getLsbD · index) same
      simpa only [BitVec.getLsbD_and, BitVec.getLsbD_not, bound, fixed, decide_true, Bool.not_false,
        Bool.and_self, Bool.and_true] using bit
  · intro bits
    constructor
    · apply BitVec.eq_of_getLsbD_eq
      intro index bound
      have grown := (bits index bound).1
      simp only [BitVec.getLsbD_and]
      cases present : before.getLsbD index with
      | false => simp
      | true =>
        cases sticks : sticking.getLsbD index with
        | false => simp
        | true => simp [grown sticks present]
    · apply BitVec.eq_of_getLsbD_eq
      intro index bound
      have same := (bits index bound).2
      simp only [BitVec.getLsbD_and, BitVec.getLsbD_not, bound, decide_true, Bool.true_and]
      cases fixed : changing.getLsbD index with
      | true => simp
      | false => rw [same fixed]

namespace Sticky

variable {before between after : Word}

theorem refl (control : Word) : Sticky control control :=
  sticky_iff.mpr fun _ _ => ⟨fun _ present => present, fun _ => rfl⟩

theorem trans (first : Sticky before between) (later : Sticky between after) :
    Sticky before after := by
  rw [sticky_iff] at first later ⊢
  intro index bound
  obtain ⟨grown, same⟩ := first index bound
  obtain ⟨grownLater, sameLater⟩ := later index bound
  exact ⟨fun sticks present => grownLater sticks (grown sticks present),
    fun fixed => (sameLater fixed).trans (same fixed)⟩

/-- Adding causes and flags keeps those there are. -/
theorem add (control : Word) {added : Word}
    (inside : ∀ index < 32, changing.getLsbD index = false →
      added.getLsbD index = false) : Sticky control (control ||| added) := by
  refine sticky_iff.mpr fun index bound => ⟨fun _ present => ?_, fun fixed => ?_⟩
  · rw [BitVec.getLsbD_or, present, Bool.true_or]
  · rw [BitVec.getLsbD_or, inside index bound fixed, Bool.or_false]

/-- The rounding direction is not among the bits that change. -/
theorem roundingMode (sticky : Sticky before after) :
    FloatControl.roundingMode after = FloatControl.roundingMode before := by
  have low : after.extractLsb' 0 2 = before.extractLsb' 0 2 := by
    apply BitVec.eq_of_getLsbD_eq
    intro index bound
    have fixed : ∀ index < 2, changing.getLsbD index = false := by decide
    have same := (sticky_iff.mp sticky index (by omega)).2 (fixed index bound)
    simpa [bound] using same
  rw [FloatControl.roundingMode, FloatControl.roundingMode, low]

end Sticky

/-- Recording what an operation raised adds its causes, and the flags of all causes present. -/
theorem record_eq (control : Word) (raised : Flags) :
    record control raised = control ||| causesOf raised |||
      ((control ||| causesOf raised) &&& causes) >>> 10 := by
  -- A flag lies ten places below its cause, so the mask of the flags takes nothing away.
  have within : ∀ index < 32, causes.getLsbD (10 + index) = true →
      flags.getLsbD index = true := by decide
  apply BitVec.eq_of_getLsbD_eq
  intro index bound
  change ((control ||| causesOf raised) |||
    (((control ||| causesOf raised) &&& causes) >>> 10 &&& flags)).getLsbD index = _
  simp only [BitVec.getLsbD_or, BitVec.getLsbD_and, BitVec.getLsbD_ushiftRight]
  cases lifted : causes.getLsbD (10 + index) with
  | false => simp
  | true => simp [within index bound lifted]

theorem causesOf_none {raised : Flags} (nothing : raised.any = false) : causesOf raised = 0 := by
  obtain ⟨inexact, underflow, overflow, divByZero, invalid⟩ := raised
  simp only [Flags.any, Bool.or_eq_false_iff] at nothing
  simp [causesOf, nothing]

theorem sticky_withCondition (control : Word) (holds : Bool) :
    Sticky control (withCondition control holds) := by
  have apart : sticking.getLsbD 23 = false ∧ changing.getLsbD 23 = true := by
    decide
  refine sticky_iff.mpr fun index bound => ?_
  rw [getLsbD_withCondition _ _ bound]
  by_cases place : index = 23
  · subst place
    exact ⟨fun sticks => absurd (sticks.symm.trans apart.1) (by decide),
      fun fixed => absurd (fixed.symm.trans apart.2) (by decide)⟩
  · rw [if_neg place]
    exact ⟨fun _ present => present, fun _ => rfl⟩

theorem sticky_compareControl (control : Word) (predicate : BitVec 4) (order : Option Ordering) :
    Sticky control (FloatUnit.compareControl control predicate order) := by
  have inside : ∀ unordered signals : Bool, ∀ index < 32,
      changing.getLsbD index = false →
        ((if unordered then flagInvalid else 0) |||
          (if unordered && signals then causeInvalid else 0)).getLsbD index = false := by
    decide
  rw [compareControl_eq]
  exact (sticky_withCondition _ _).trans (.add _ (inside _ _))

/-- What a comparison does stays within the condition, the flag and the cause. -/
theorem compareControl_outside (control : Word) (predicate : BitVec 4) (order : Option Ordering) :
    FloatUnit.compareControl control predicate order &&&
        ~~~(condition ||| causeInvalid ||| flagInvalid) =
      control &&& ~~~(condition ||| causeInvalid ||| flagInvalid) := by
  have inside : ∀ unordered signals : Bool, ∀ index < 32,
      (condition ||| causeInvalid ||| flagInvalid).getLsbD index = false → index ≠ 23 ∧
        ((if unordered then flagInvalid else 0) |||
          (if unordered && signals then causeInvalid else 0)).getLsbD index = false := by
    decide
  rw [compareControl_eq]
  apply BitVec.eq_of_getLsbD_eq
  intro index bound
  simp only [BitVec.getLsbD_and, BitVec.getLsbD_not, bound, decide_true, Bool.true_and]
  cases touched : (condition ||| causeInvalid ||| flagInvalid).getLsbD index with
  | true => simp only [Bool.not_true, Bool.and_false]
  | false =>
    obtain ⟨apart, nothing⟩ := inside order.isNone (predicate.getLsbD 3) index bound touched
    rw [BitVec.getLsbD_or, nothing, getLsbD_withCondition _ _ bound, if_neg apart, Bool.or_false]

end FloatControl

/-! ### The law of the control register -/

/-- What becomes of the control register when an instruction is carried out, or none is. Results are
rounded in a given direction, and `read` gives the general registers. -/
def FloatUnit.ControlLaw (unit : FloatUnit) (mode : Mode) (read : RegNum → Word) (after : Word) :
    Option Instr → Prop
  | some (.float (.operate (.compare _ _ _ _))) =>
    FloatControl.Sticky unit.control31 after ∧
      after &&& ~~~(FloatControl.condition ||| FloatControl.causeInvalid |||
          FloatControl.flagInvalid) =
        unit.control31 &&& ~~~(FloatControl.condition ||| FloatControl.causeInvalid |||
          FloatControl.flagInvalid)
  | some (.float (.operate op)) =>
    match unit.computationIn mode op with
    | some computation =>
      after = unit.control31 ||| FloatControl.causesOf computation.answer.flags |||
        (if computation.answer.flags.any then
          ((unit.control31 ||| FloatControl.causesOf computation.answer.flags) &&&
            FloatControl.causes) >>> 10
        else 0)
    | none => after = unit.control31
  | some (.float (.controlTo rt fs)) => after = if fs = 31 then read rt else unit.control31
  | some (.float .unimplemented) => after = unit.control31 ||| FloatControl.causeUnimplemented
  | _ => after = unit.control31

namespace FloatUnit

variable (unit : FloatUnit)

theorem controlAfter_eq (raised : Flags) :
    unit.controlAfter raised = unit.control31 ||| FloatControl.causesOf raised |||
      (if raised.any then
        ((unit.control31 ||| FloatControl.causesOf raised) &&& FloatControl.causes) >>> 10
      else 0) := by
  cases any : raised.any with
  | false => simp [controlAfter, any, FloatControl.causesOf_none any]
  | true => simp [controlAfter, any, FloatControl.record_eq]

theorem sticky_controlAfter (raised : Flags) :
    FloatControl.Sticky unit.control31 (unit.controlAfter raised) := by
  have within : ∀ index < 32, FloatControl.changing.getLsbD index = false →
      FloatControl.causes.getLsbD (10 + index) = false ∧ (index < 12 ∨ 16 < index) := by decide
  have causes (index : Nat) (bound : index < 32)
      (outside : FloatControl.changing.getLsbD index = false) :
      (FloatControl.causesOf raised).getLsbD index = false := by
    rw [FloatControl.getLsbD_causesOf _ bound]
    rcases (within index bound outside).2 with low | high
    · simp only [decide_eq_false (by omega : ¬12 ≤ index), Bool.false_and]
    · rw [raised.raises_of_le (by omega), Bool.and_false]
  -- First the causes are added, then the flags below all causes present.
  rw [controlAfter_eq]
  refine (FloatControl.Sticky.add _ causes).trans (.add _ fun index bound outside => ?_)
  cases raised.any with
  | false => exact BitVec.getLsbD_zero
  | true =>
    simp only [if_true, BitVec.getLsbD_ushiftRight, BitVec.getLsbD_and,
      (within index bound outside).1, Bool.and_false]

theorem controlLaw_execute (read : RegNum → Word) (op : FloatOp) :
    unit.ControlLaw unit.mode read (unit.execute op).1.control31 (some (.float (.operate op))) := by
  have computed {computation : Computation} (computes : unit.computation? op = some computation) :
      (unit.execute op).1.control31 = unit.controlAfter computation.answer.flags := by
    rw [execute_of_computation computes, commit_eq]
  cases op with
  | compare precision predicate fs ft =>
    exact ⟨FloatControl.sticky_compareControl _ _ _, FloatControl.compareControl_outside _ _ _⟩
  | move precision fd fs => cases precision <;> rfl
  | _ => exact (computed rfl).trans (unit.controlAfter_eq _)

theorem controlLaw_setControl {next : FloatUnit} {mode : Mode} {read : RegNum → Word}
    {rt fs : RegNum} {update : LineUpdate}
    (written : unit.setControl? fs (read rt) = some (next, update)) :
    unit.ControlLaw mode read next.control31 (some (.float (.controlTo rt fs))) := by
  simp only [setControl?] at written
  split at written <;> cases written <;> rfl

/-- What a write of another control register does to this one. -/
theorem controlLaw_ignored {mode : Mode} {read : RegNum → Word} {rt fs : RegNum} {value : Word}
    (ignored : unit.setControl? fs value = none) :
    unit.ControlLaw mode read unit.control31 (some (.float (.controlTo rt fs))) := by
  have other : fs ≠ 31 := by
    rintro rfl
    cases ignored
  exact (if_neg other).symm

/-- Without a write of the register its causes and flags grow, and nothing else but the condition
changes. -/
theorem ControlLaw.sticky {mode : Mode} {read : RegNum → Word} {after : Word}
    {completed : Option Instr} (law : unit.ControlLaw mode read after completed)
    (unwritten : ∀ rt, completed ≠ some (.float (.controlTo rt 31))) :
    FloatControl.Sticky unit.control31 after := by
  unfold ControlLaw at law
  -- One case for each clause of the law.
  split at law
  · exact law.1
  next op comparison =>
    split at law
    next computation computes =>
      rw [law, ← controlAfter_eq]
      exact unit.sticky_controlAfter _
    · rw [law]
      exact .refl _
  next rt fs =>
    have other : fs ≠ 31 := by
      rintro rfl
      exact unwritten rt rfl
    rw [law, if_neg other]
    exact .refl _
  · rw [law]
    exact .add _ (by decide)
  · rw [law]
    exact .refl _

end FloatUnit

/-! ### Instructions -/

namespace Core

theorem fpu_of_forgetOrders {core other : Core} (same : core.forgetOrders = other.forgetOrders) :
    core.fpu = other.fpu := by
  rw [eq_of_forgetOrders same]

section

variable {core next : Core} {random : Fin 64} {word : Word} {notes : List Note} {extra : Nat}

@[simp] theorem fpu_writeSystem (core : Core) (number : Nat) (value : Word) :
    (core.writeSystem number value).1.fpu = core.fpu := by
  simp only [writeSystem]
  split <;> rfl

theorem fpu_branchIf (core : Core) (taken likely : Bool) (offset : Word) :
    (core.branchIf taken likely offset).fpu = core.fpu := by
  obtain ⟨pc, sequencer, branched⟩ := core.branchIf_eq taken likely offset
  rw [branched]

theorem fpu_issueSystem {op : SystemOp}
    (done : core.issueSystem random word op = .retire next notes extra) : next.fpu = core.fpu := by
  cases issueSystem_completes done with
  | moveTo rt target => exact fpu_writeSystem _ _ _
  | branch branch => exact fpu_branchIf _ _ _ _
  | _ => rfl

/-- An instruction of another kind than those of the floating point coprocessor leaves the unit
alone. -/
theorem fpu_issueInstr {instr : Instr}
    (done : core.issueInstr random word instr = .retire next notes extra)
    (other : ∀ float, instr ≠ .float float) : next.fpu = core.fpu := by
  cases instr with
  | checked op rd rs rt | checkedImmediate rt rs operand =>
    simp only [issueInstr] at done
    split at done <;> cases done
    rfl
  | divide signed rs rt =>
    simp only [issueInstr, issueDivide] at done
    split at done <;> cases done <;> rfl
  | jump link target =>
    cases done
    split <;> rfl
  | jumpRegister link rs =>
    cases done
    cases link <;> rfl
  | branch condition likely link offset =>
    cases done
    split <;> exact fpu_branchIf _ _ _ _
  | system op => exact fpu_issueSystem done
  | float float => exact absurd rfl (other float)
  -- The other coprocessors can only branch.
  | foreign unit branch =>
    simp only [issueInstr, issueForeign] at done
    split at done
    · cases done
    · split at done <;> cases done
      exact fpu_branchIf _ _ _ _
  | load op rt base offset | store op rt base offset => cases done
  | syscall | breakpoint | reserved => cases done
  | _ =>
    cases done
    rfl

variable {unit : FloatUnit}

theorem controlLaw_issueFloat {float : FloatInstr} (present : core.fpu = some unit)
    (done : core.issueFloat word float = .retire next notes extra) :
    ∃ after, next.fpu = some after ∧
      unit.ControlLaw unit.mode core.reg after.control31 (some (.float float)) := by
  simp only [issueFloat, present] at done
  split at done
  · cases done
  · cases float with
    | moveFrom rt fs =>
      cases done
      exact ⟨unit, present, rfl⟩
    | moveTo rt fs =>
      cases done
      exact ⟨_, rfl, rfl⟩
    | controlFrom rt fs =>
      simp only [issueFloatOn] at done
      split at done <;> cases done <;> exact ⟨unit, present, rfl⟩
    | controlTo rt fs =>
      simp only [issueFloatOn] at done
      split at done
      next written =>
        cases done
        exact ⟨_, fpu_updateUnit _ _ _, FloatUnit.controlLaw_setControl unit written⟩
      next ignored =>
        cases done
        exact ⟨unit, present, FloatUnit.controlLaw_ignored unit ignored⟩
    | branch branch =>
      cases done
      exact ⟨unit, (fpu_branchIf _ _ _ _).trans present, rfl⟩
    | load ft base offset | store ft base offset => cases done
    | operate op =>
      cases done
      exact ⟨_, fpu_updateUnit _ _ _, FloatUnit.controlLaw_execute unit core.reg op⟩
    | unimplemented =>
      cases done
      exact ⟨_, fpu_updateUnit core unit.unimplemented (some true), rfl⟩

/-- An instruction that completes does to the control register what the law says. -/
theorem controlLaw_issueInstr {instr : Instr} (present : core.fpu = some unit)
    (done : core.issueInstr random word instr = .retire next notes extra) :
    ∃ after, next.fpu = some after ∧
      unit.ControlLaw unit.mode core.reg after.control31 (some instr) := by
  cases instr with
  | float float => exact controlLaw_issueFloat present done
  | _ =>
    -- For all others the law says that the register stays.
    refine ⟨unit, (fpu_issueInstr done ?_).trans present, rfl⟩
    rintro float ⟨⟩

/-- An instruction that asks for an access has nothing to do with the control register. -/
theorem controlLaw_of_asks {instr : Instr} (mode : Mode) (read : RegNum → Word)
    (asks : (core.issueInstr random word instr).asks = true) :
    unit.ControlLaw mode read unit.control31 (some instr) := by
  cases instr with
  | float float =>
    cases float with
    | controlTo rt fs =>
      simp only [issueInstr, issueFloat, issueFloatOn] at asks
      split at asks
      · cases asks
      · split at asks
        · split at asks <;> cases asks
        · cases asks
    | operate op | unimplemented =>
      simp only [issueInstr, issueFloat, issueFloatOn] at asks
      split at asks
      · cases asks
      · split at asks <;> cases asks
    | _ => rfl
  | _ => rfl

/-- What is loaded does not reach the control register. -/
theorem control31_receive (core : Core) (destination : Destination) {width : Width}
    (value : BitVec width.bits) (present : core.fpu = some unit) :
    ∃ after, (core.receive destination value).fpu = some after ∧
      after.control31 = unit.control31 := by
  cases destination with
  | float ft =>
    refine ⟨unit.setHalf ft (value.setWidth 32), ?_, rfl⟩
    simp only [receive, present]
    rfl
  | _ => exact ⟨unit, present, rfl⟩

end

end Core

/-! ### Operations -/

/-- The instruction that was executed and entered no exception, if there was one. -/
def Deed.completed? (deed : Deed) : Option Instr :=
  if entered deed.notes = [] then deed.instr? else none

namespace Cpu

variable {β : Type} [Bus β] {cpu start : Cpu} {bus memory : β} {operation : Operation} {word : Word}
  {unit : FloatUnit}

omit [Bus β] in
theorem Closes.fpu {done outcome : Outcome β} (closes : Closes done outcome) :
    outcome.cpu.core.fpu = done.cpu.core.fpu := by
  cases closes <;> rfl

theorem Ran.completed? (ran : cpu.Ran bus operation word start memory) :
    (cpu.deed bus operation).completed? = some (decode word) := by
  simp only [Deed.completed?, deed, ran.quiet, if_true, Deed.instr?, ran.executed, Option.map_some]

theorem controlLaw_execute_of_none (present : cpu.core.fpu = some unit)
    (silent : cpu.executeTrap bus word = none) :
    ∃ next, (cpu.execute bus word).cpu.core.fpu = some next ∧
      unit.ControlLaw unit.mode cpu.core.reg next.control31 (some (decode word)) := by
  rcases core_execute_of_none silent with ⟨next, notes, extra, issued, executed⟩ |
    ⟨load, value, issued, executed⟩ | ⟨store, issued, executed⟩
  · rw [executed]
    exact Core.controlLaw_issueInstr present issued
  -- An access moves search orders, and a load may change a register of the unit.
  · have marked := Core.fpu_of_forgetOrders (Core.forgetOrders_mark cpu.core load.demand)
    obtain ⟨after, received, same⟩ := (cpu.core.mark load.demand).control31_receive
      load.destination value (marked.trans present)
    rw [executed]
    refine ⟨after, received, ?_⟩
    rw [same]
    exact Core.controlLaw_of_asks _ _ (congrArg Issue.asks issued)
  · have marked := Core.fpu_of_forgetOrders (Core.forgetOrders_mark cpu.core store.demand)
    rw [executed]
    exact ⟨unit, marked.trans present, Core.controlLaw_of_asks _ _ (congrArg Issue.asks issued)⟩

/-- What the host does without running the processor leaves the control register alone. -/
theorem control31_operate_of_host (present : cpu.core.fpu = some unit) (bus : β)
    (host : operation.runs = false) :
    ∃ next, (cpu.operate bus operation).cpu.core.fpu = some next ∧
      next.control31 = unit.control31 := by
  cases operation with
  | step | execute word => cases host
  | setFpr number value =>
    refine ⟨unit.setPair (Fin.ofNat 16 number) value, ?_, rfl⟩
    change cpu.core.fpu.map (·.setPair (Fin.ofNat 16 number) value) = _
    rw [present]
    rfl
  | setSystemReg number value =>
    exact ⟨unit, (Core.fpu_writeSystem cpu.core number value).trans present, rfl⟩
  | setInput line asserted =>
    exact ⟨unit, (Core.fpu_setInput cpu.core line asserted).trans present, rfl⟩
  | _ => exact ⟨unit, present, rfl⟩

/-- An operation does to the control register what the law says of the instruction that it
completes. -/
theorem controlLaw_operate (present : cpu.core.fpu = some unit) (bus : β) (operation : Operation) :
    ∃ next, (cpu.operate bus operation).cpu.core.fpu = some next ∧
      unit.ControlLaw unit.mode cpu.core.reg next.control31
        (cpu.deed bus operation).completed? := by
  rcases cpu.operate_courses bus operation with ⟨word, start, memory, ran⟩ |
    ⟨trap, core, memory, left⟩ | host
  · -- The instruction runs in the state of the beginning but for time and the search orders.
    have begins := (Core.fpu_of_forgetOrders ran.same).trans present
    have same : start.core.reg = cpu.core.reg := by
      rw [Core.eq_of_forgetOrders ran.same]
      rfl
    rw [ran.closes.fpu, ran.completed?, ← same]
    exact controlLaw_execute_of_none begins ran.silent
  · -- The handler is entered with the unit as it was.
    have begins := (Core.fpu_of_forgetOrders left.same).trans present
    have nothing : (cpu.deed bus operation).completed? = none := if_neg left.reported
    rw [left.closes.fpu, nothing]
    exact ⟨unit, begins, rfl⟩
  · have nothing : (cpu.deed bus operation).completed? = none := by
      simp only [Deed.completed?, deed, Deed.instr?, executed?_of_host host, Option.map_none,
        ite_self]
    obtain ⟨next, found, same⟩ := control31_operate_of_host present bus host
    rw [nothing]
    exact ⟨next, found, same⟩

end Cpu

end R3000

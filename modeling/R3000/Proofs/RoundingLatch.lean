import R3000.Proofs.StickyControl

/-!
# A processor with a copy of the rounding direction

The arithmetic may hold the rounding direction in a place of its own, which a write of the control
register loads, instead of reading it from the register each time. The arithmetic of such a
processor rounds in the direction that it holds. It is the direction that the register names, since
nothing but a write of the register changes that field; so the two processors have the same runs.
-/
namespace R3000

open Floating

/-! ### Rounding in a given direction -/

/-- Perform an operation with its result rounded in a given direction. Moves and comparisons do not
round. -/
def FloatUnit.executeIn (unit : FloatUnit) (mode : Mode) (op : FloatOp) : FloatUnit × LineUpdate :=
  match unit.computationIn mode op with
  | some computation => unit.commit computation.answer.flags (·.store computation)
  | none => unit.execute op

theorem FloatUnit.executeIn_mode (unit : FloatUnit) (op : FloatOp) :
    unit.executeIn unit.mode op = unit.execute op := by
  simp only [executeIn]
  split
  next computation computes => exact (execute_of_computation computes).symm
  · rfl

namespace Core

/-- Issue the instruction that a word encodes, with results rounded in a given direction. -/
def issueIn (core : Core) (mode : Mode) (random : Fin 64) (word : Word) : Issue :=
  match decode word, core.fpu with
  | .float (.operate op), some unit =>
    if core.unitUsable 1 then
      .noted (core.updateUnit (unit.executeIn mode op).1 (unit.executeIn mode op).2)
    else .raise (.unusable 1)
  | _, _ => core.issue random word

/-- There is a unit, and a direction is the one that its control register names. -/
def InStep (core : Core) (mode : Mode) : Prop := ∃ unit, core.fpu = some unit ∧ mode = unit.mode

theorem InStep.of_forgetOrders {core other : Core} {mode : Mode} (inStep : other.InStep mode)
    (same : core.forgetOrders = other.forgetOrders) : core.InStep mode := by
  obtain ⟨unit, present, named⟩ := inStep
  exact ⟨unit, (fpu_of_forgetOrders same).trans present, named⟩

theorem issueIn_eq {core : Core} {mode : Mode} (inStep : core.InStep mode) (random : Fin 64)
    (word : Word) : core.issueIn mode random word = core.issue random word := by
  obtain ⟨unit, present, rfl⟩ := inStep
  simp only [issueIn, present]
  split
  next op other decoded same =>
    cases same
    rw [unit.executeIn_mode]
    simp only [issue, decoded, issueInstr, issueFloat, present, issueFloatOn]
    cases core.unitUsable 1 <;> rfl
  · rfl

/-- The direction that is held after an instruction, or none, has completed. -/
def roundingAfter (core : Core) (mode : Mode) : Option Instr → Mode
  | some (.float (.controlTo rt fs)) =>
    if fs = 31 then FloatControl.roundingMode (core.reg rt) else mode
  | _ => mode

/-- The direction that is held follows the register. -/
theorem roundingAfter_eq {core : Core} {unit next : FloatUnit} {completed : Option Instr}
    (law : unit.ControlLaw unit.mode core.reg next.control31 completed) :
    core.roundingAfter unit.mode completed = next.mode := by
  -- A write loads the direction that it gives to the register; without one both stay.
  by_cases written : ∃ rt, completed = some (.float (.controlTo rt 31))
  · obtain ⟨rt, rfl⟩ := written
    have loaded : next.control31 = core.reg rt := law
    exact congrArg FloatControl.roundingMode loaded.symm
  · have unwritten (rt : RegNum) : completed ≠ some (.float (.controlTo rt 31)) :=
      fun writes => written ⟨rt, writes⟩
    have held : core.roundingAfter unit.mode completed = unit.mode := by
      unfold roundingAfter
      split
      next rt fs =>
        apply if_neg
        rintro rfl
        exact unwritten rt rfl
      · rfl
    rw [held]
    exact (law.sticky unit unwritten).roundingMode.symm

end Core

namespace Cpu

section

variable {β : Type} [Bus β]

/-- Do what an instruction asks for. -/
def conclude (cpu : Cpu) (bus : β) : Issue → Outcome β
  | .retire core notes extra => ⟨{ cpu with core }.tick extra, bus, notes⟩
  | .raise trap => cpu.trap bus trap
  | .load load => cpu.load bus load
  | .store store => cpu.store bus store

theorem execute_eq_conclude (cpu : Cpu) (bus : β) (word : Word) :
    cpu.execute bus word = cpu.conclude bus (cpu.core.issue cpu.random word) := by
  simp only [execute]
  cases cpu.core.issue cpu.random word <;> rfl

/-- Execute an instruction word with results rounded in a given direction. -/
def executeIn (cpu : Cpu) (mode : Mode) (bus : β) (word : Word) : Outcome β :=
  cpu.conclude bus (cpu.core.issueIn mode cpu.random word)

def performIn (cpu : Cpu) (mode : Mode) (bus : β) : Outcome β :=
  match cpu.fetch bus with
  | (.error trap, cpu, bus) => cpu.trap bus trap
  | (.ok word, cpu, bus) =>
    if cpu.core.system.interruptPending then cpu.trap bus .interrupt
    else cpu.executeIn mode bus word

def operateIn (cpu : Cpu) (mode : Mode) (bus : β) : Operation → Outcome β
  | .step => advance ((cpu.tick 1).performIn mode bus)
  | .execute word => cpu.executeIn mode bus word
  | operation => cpu.operate bus operation

variable {cpu : Cpu} {mode : Mode}

theorem executeIn_eq (inStep : cpu.core.InStep mode) (bus : β) (word : Word) :
    cpu.executeIn mode bus word = cpu.execute bus word := by
  rw [executeIn, Core.issueIn_eq inStep, execute_eq_conclude]

theorem performIn_eq (inStep : cpu.core.InStep mode) (bus : β) :
    cpu.performIn mode bus = cpu.perform bus := by
  simp only [performIn, perform]
  rcases succeeded : cpu.fetch bus with ⟨trap | word, fetched, memory⟩
  · rfl
  · -- Fetching has moved search orders only, so the unit is still in step.
    have marked : fetched.core.forgetOrders = cpu.core.forgetOrders := by
      rw [fetch_of_ok succeeded]
      exact Core.forgetOrders_mark _ _
    simp only [executeIn_eq (inStep.of_forgetOrders marked)]

theorem operateIn_eq (inStep : cpu.core.InStep mode) (bus : β) (operation : Operation) :
    cpu.operateIn mode bus operation = cpu.operate bus operation := by
  cases operation with
  | step =>
    have ticked : (cpu.tick 1).core.InStep mode := inStep
    exact congrArg advance (performIn_eq ticked bus)
  | execute word => exact executeIn_eq inStep bus word
  | _ => rfl

end

end Cpu

/-! ### The processor and its copy -/

/-- A processor with the rounding direction that its arithmetic holds. -/
structure Latched where
  cpu : Cpu
  rounding : Mode

namespace Latched

/-- The arithmetic begins with rounding to the nearest. -/
def build (config : Config) : Latched := ⟨(Cpu.build config).1, .nearestEven⟩

section

variable {β : Type} [Bus β]

def deed (latched : Latched) (bus : β) (operation : Operation) : Deed where
  operation
  executed := latched.cpu.executed? bus operation
  notes := (latched.cpu.operateIn latched.rounding bus operation).notes

/-- After an operation. A write of the control register loads the direction. -/
def after (latched : Latched) (bus : β) (operation : Operation) : Latched where
  cpu := (latched.cpu.operateIn latched.rounding bus operation).cpu
  rounding :=
    latched.cpu.core.roundingAfter latched.rounding (latched.deed bus operation).completed?

end

/-- A run from one state to another, with its history, the latest deed first. -/
inductive Recorded (start : Latched) : List Deed → Latched → Prop where
  | start : Recorded start [] start
  | operate {β : Type} [Bus β] {past : List Deed} {latched : Latched} (bus : β)
      (operation : Operation) (before : Recorded start past latched) :
      Recorded start (latched.deed bus operation :: past) (latched.after bus operation)

/-- The direction held is the one that the control register names. -/
def InStep (latched : Latched) : Prop := latched.cpu.core.InStep latched.rounding

theorem inStep_build {config : Config} (equipped : (Cpu.build config).1.core.fpu.isSome = true) :
    (build config).InStep := by
  obtain ⟨unit, present⟩ := Option.isSome_iff_exists.mp equipped
  refine ⟨unit, present, ?_⟩
  obtain ⟨attachment, -, rfl⟩ := Option.map_eq_some_iff.mp present
  rfl

namespace InStep

variable {β : Type} [Bus β] {latched : Latched}

theorem cpu_after (inStep : latched.InStep) (bus : β) (operation : Operation) :
    (latched.after bus operation).cpu = (latched.cpu.operate bus operation).cpu :=
  congrArg Outcome.cpu (Cpu.operateIn_eq inStep bus operation)

theorem deed_eq (inStep : latched.InStep) (bus : β) (operation : Operation) :
    latched.deed bus operation = latched.cpu.deed bus operation := by
  rw [deed, Cpu.operateIn_eq inStep]
  rfl

/-- An operation does to the control register what the law says, with results rounded in the
direction held. -/
theorem controlLaw_after (inStep : latched.InStep) {unit : FloatUnit}
    (present : latched.cpu.core.fpu = some unit) (bus : β) (operation : Operation) :
    ∃ next, (latched.after bus operation).cpu.core.fpu = some next ∧
      unit.ControlLaw latched.rounding latched.cpu.core.reg next.control31
        (latched.deed bus operation).completed? := by
  obtain ⟨other, found, named⟩ := inStep
  cases present.symm.trans found
  rw [cpu_after ⟨unit, present, named⟩, deed_eq ⟨unit, present, named⟩, named]
  exact Cpu.controlLaw_operate present bus operation

theorem after (inStep : latched.InStep) (bus : β) (operation : Operation) :
    (latched.after bus operation).InStep := by
  obtain ⟨unit, present, named⟩ := id inStep
  obtain ⟨next, found, law⟩ := inStep.controlLaw_after present bus operation
  rw [named] at law
  refine ⟨next, found, ?_⟩
  change latched.cpu.core.roundingAfter latched.rounding _ = _
  rw [named]
  exact Core.roundingAfter_eq law

end InStep

variable {start latched : Latched} {past : List Deed}

namespace Recorded

theorem inStep (run : start.Recorded past latched) (initially : start.InStep) : latched.InStep := by
  -- By induction on the run: one operation keeps the copy in step.
  induction run with
  | start => exact initially
  | operate bus operation _ ih => exact ih.after bus operation

/-- The copy makes no difference to a run. -/
theorem plain (run : start.Recorded past latched) (initially : start.InStep) :
    start.cpu.Recorded past latched.cpu := by
  induction run with
  | start => exact .start
  | operate bus operation before ih =>
    have now := before.inStep initially
    rw [now.deed_eq, now.cpu_after]
    exact .operate bus operation ih

/-- Every run of the processor can be made with the copy. -/
theorem of_plain {cpu : Cpu} (run : start.cpu.Recorded past cpu) (initially : start.InStep) :
    ∃ rounding, start.Recorded past ⟨cpu, rounding⟩ := by
  induction run with
  | start => exact ⟨start.rounding, .start⟩
  | @operate β _ past cpu bus operation _ ih =>
    obtain ⟨rounding, before⟩ := ih
    have now := before.inStep initially
    have later := Recorded.operate bus operation before
    refine ⟨(Latched.after ⟨cpu, rounding⟩ bus operation).rounding, ?_⟩
    rw [now.deed_eq] at later
    rw [← now.cpu_after]
    exact later

/-- Without a write of the control register on the way, its causes and flags grow, and nothing else
but the condition changes. -/
theorem sticky (run : start.Recorded past latched) (initially : start.InStep) {unit : FloatUnit}
    (present : start.cpu.core.fpu = some unit)
    (unwritten : ∀ deed ∈ past, ∀ rt, deed.completed? ≠ some (.float (.controlTo rt 31))) :
    ∃ final, latched.cpu.core.fpu = some final ∧
      FloatControl.Sticky unit.control31 final.control31 := by
  induction run with
  | start => exact ⟨unit, present, .refl _⟩
  | operate bus operation before ih =>
    -- The latest operation adds to what the earlier ones have added.
    obtain ⟨between, found, earlier⟩ :=
      ih fun deed member => unwritten deed (List.mem_cons_of_mem _ member)
    obtain ⟨final, last, law⟩ :=
      (before.inStep initially).controlLaw_after found bus operation
    exact ⟨final, last, earlier.trans (law.sticky between (unwritten _ List.mem_cons_self))⟩

end Recorded

/-- The history of the control register. On every run of a processor that was built with a unit, the
direction in which results are rounded is the one that the register names in its two low bits. From
any point of the run to a later one without a write of the register in between, no cause and no flag
is cleared, and nothing else but the condition changes. And any operation then does to the register
just what the law says of the instruction that it completes. -/
theorem control_history {config : Config} {past later : List Deed} {first last : Latched}
    (equipped : (Cpu.build config).1.core.fpu.isSome = true)
    (before : (build config).Recorded past first) (run : first.Recorded later last) :
    ∃ unit final, first.cpu.core.fpu = some unit ∧ last.cpu.core.fpu = some final ∧
      last.rounding = FloatControl.roundingMode final.control31 ∧
      FloatControl.Selects final.control31 last.rounding ∧
      ((∀ deed ∈ later, ∀ rt, deed.completed? ≠ some (.float (.controlTo rt 31))) →
        FloatControl.Sticky unit.control31 final.control31) ∧
      (∀ {β : Type} [Bus β] (bus : β) (operation : Operation), ∃ next,
        (last.after bus operation).cpu.core.fpu = some next ∧
          final.ControlLaw last.rounding last.cpu.core.reg next.control31
            (last.deed bus operation).completed?) ∧
      ∀ deeds cpu, (Cpu.build config).1.Recorded deeds cpu ↔
        ∃ rounding, (build config).Recorded deeds ⟨cpu, rounding⟩ := by
  have initially := inStep_build equipped
  have between := before.inStep initially
  have now := run.inStep between
  obtain ⟨unit, present, -⟩ := id between
  obtain ⟨final, found, named⟩ := id now
  refine ⟨unit, final, present, found, named, ?_, ?_, ?_, ?_⟩
  · rw [named]
    exact FloatControl.selects_roundingMode _
  · intro unwritten
    obtain ⟨same, reached, sticky⟩ := run.sticky between present unwritten
    cases reached.symm.trans found
    exact sticky
  · intro β _ bus operation
    exact now.controlLaw_after found bus operation
  · intro deeds cpu
    constructor
    · intro plain
      have copied : (build config).cpu.Recorded deeds cpu := plain
      exact Recorded.of_plain copied initially
    · rintro ⟨rounding, latched⟩
      exact latched.plain initially

/-- A program chooses rounding toward zero. -/
def truncating : Latched :=
  (((build (.ofModel .r3081)).after Cpu.noMemory (.setSystemReg 12 0x20000000)).after Cpu.noMemory
    (.setGpr 8 1)).after Cpu.noMemory (.execute 0x44c8f800)

/-- Then it divides one by three. -/
def truncatedThird : Latched :=
  ((truncating.after Cpu.noMemory (.setFpr 1 0x3f800000)).after Cpu.noMemory
    (.setFpr 2 0x40400000)).after Cpu.noMemory (.execute 0x46041183)

/-- The third is rounded toward zero, and leaves its cause and its flag in the register. -/
theorem control_history_truncated_third :
    truncatedThird.rounding = .towardZero ∧ truncatedThird.cpu.fpr 3 = some 0x3eaaaaaa ∧
      ∃ unit final, truncating.cpu.core.fpu = some unit ∧ unit.control31 = 0x00000001 ∧
        truncatedThird.cpu.core.fpu = some final ∧ final.control31 = 0x00001005 ∧
        FloatControl.Sticky unit.control31 final.control31 := by
  have before : (build (.ofModel .r3081)).Recorded _ truncating :=
    .operate _ _ (.operate _ _ (.operate _ _ .start))
  have run : truncating.Recorded _ truncatedThird :=
    .operate _ _ (.operate _ _ (.operate _ _ .start))
  obtain ⟨unit, final, present, found, -, selects, sticky, -, -⟩ :=
    control_history (by decide +kernel) before run
  have first : truncating.cpu.floatControl = some 0x00000001 := by decide +kernel
  have last : truncatedThird.cpu.floatControl = some 0x00001005 := by decide +kernel
  simp only [Cpu.floatControl, present, found, Option.map_some, Option.some.injEq] at first last
  rw [last] at selects
  refine ⟨selects.towardZero (by decide), by decide +kernel, unit, final, present, first, found,
    last, sticky ?_⟩
  decide +kernel

end Latched

end R3000

import R3000.BusTrace
import R3000.Proofs.Lockstep

/-!
# Validation

A host that takes a description from outside validates it before it builds a processor. Validation
reports the first fault of the description, or answers with the description that it means, in which
a floating point unit of revision zero is left out.

The builder leaves such a unit out as well, and nothing that a processor does looks at the unit of
its description again. So a processor that is built without validation is the one that validation
leads to, but for the description it keeps, and the two stay in lockstep.
-/
namespace R3000

/-! ### Faults -/

/-- A cache of size zero is no cache. -/
def SoundSize (size : Nat) : Prop := size = 0 ∨ size.isPowerOfTwo

theorem cacheSizeValid_iff_sound (size : Nat) : cacheSizeValid size = true ↔ SoundSize size :=
  cacheSizeValid_iff size

instance (size : Nat) : Decidable (SoundSize size) :=
  decidable_of_iff (cacheSizeValid size = true) (cacheSizeValid_iff_sound size)

theorem FpuAttachment.isPresent_iff (unit : FpuAttachment) :
    unit.isPresent = true ↔ unit.revision ≠ 0 := by
  simp only [isPresent, bne_iff_ne]

namespace Config

variable {config valid : Config} {error : ConfigError} {unit : FpuAttachment}

/-- The error is the first fault of the description. -/
inductive Fault (config : Config) : ConfigError → Prop
  | instructionCache (odd : ¬ SoundSize config.icacheSize) :
    Fault config (.cacheSize .instruction config.icacheSize)
  | dataCache (sound : SoundSize config.icacheSize) (odd : ¬ SoundSize config.dcacheSize) :
    Fault config (.cacheSize .data config.dcacheSize)
  | interrupt {unit : FpuAttachment} (sound : SoundSize config.icacheSize)
      (sound' : SoundSize config.dcacheSize) (attached : config.fpu = some unit)
      (present : unit.revision ≠ 0) (outside : 6 ≤ unit.irq) :
    Fault config (.fpuInterrupt unit.irq)

/-- A unit that is left is one of the description and present. -/
theorem fpu_dropAbsentFpu :
    config.dropAbsentFpu.fpu = some unit ↔ config.fpu = some unit ∧ unit.revision ≠ 0 := by
  rw [← unit.isPresent_iff]
  exact Option.filter_eq_some_iff

theorem firstError_dropAbsentFpu_iff :
    config.dropAbsentFpu.firstError = some error ↔ config.Fault error := by
  have icache : config.dropAbsentFpu.icacheSize = config.icacheSize := rfl
  have dcache : config.dropAbsentFpu.dcacheSize = config.dcacheSize := rfl
  simp only [firstError, icache, dcache, Bool.not_eq_true', ← Bool.not_eq_true,
    cacheSizeValid_iff_sound]
  constructor
  -- The tests come in the order in which the faults exclude each other.
  · intro found
    split at found
    next odd =>
      cases found
      exact .instructionCache odd
    next sound =>
      split at found
      next odd =>
        cases found
        exact .dataCache (not_not.mp sound) odd
      next sound' =>
        split at found
        next unit attached =>
          obtain ⟨attached, present⟩ := fpu_dropAbsentFpu.mp attached
          split at found
          next outside =>
            cases found
            exact .interrupt (not_not.mp sound) (not_not.mp sound') attached present outside
          next inside => cases found
        next none => cases found
  · intro fault
    cases fault with
    | instructionCache odd => rw [if_pos odd]
    | dataCache sound odd => rw [if_neg (not_not.mpr sound), if_pos odd]
    | interrupt sound sound' attached present outside =>
      rw [if_neg (not_not.mpr sound), if_neg (not_not.mpr sound'),
        fpu_dropAbsentFpu.mpr ⟨attached, present⟩]
      exact if_pos outside

/-! ### The description that is meant -/

/-- A unit of revision zero is not meant. -/
inductive Means (config : Config) : Config → Prop
  | itself (present : ∀ unit, config.fpu = some unit → unit.revision ≠ 0) : Means config config
  | detached {unit : FpuAttachment} (attached : config.fpu = some unit)
      (absent : unit.revision = 0) : Means config { config with fpu := none }

theorem dropAbsentFpu_of_present (present : ∀ unit, config.fpu = some unit → unit.revision ≠ 0) :
    config.dropAbsentFpu = config := by
  have kept : config.fpu.filter FpuAttachment.isPresent = config.fpu := by
    ext unit
    rw [Option.filter_eq_some_iff, unit.isPresent_iff]
    exact and_iff_left_of_imp (present unit)
  rw [dropAbsentFpu, kept]

theorem means_dropAbsentFpu (config : Config) : config.Means config.dropAbsentFpu := by
  by_cases absent : ∃ unit, config.fpu = some unit ∧ unit.revision = 0
  · obtain ⟨unit, attached, absent⟩ := absent
    have dropped : config.dropAbsentFpu = { config with fpu := none } := by
      simp [dropAbsentFpu, attached, FpuAttachment.isPresent, absent]
    rw [dropped]
    exact .detached attached absent
  · push Not at absent
    rw [dropAbsentFpu_of_present absent]
    exact .itself absent

@[simp] theorem dropAbsentFpu_dropAbsentFpu (config : Config) :
    config.dropAbsentFpu.dropAbsentFpu = config.dropAbsentFpu :=
  dropAbsentFpu_of_present fun _ attached => (fpu_dropAbsentFpu.mp attached).2

theorem validate_eq_error_iff :
    config.validate = .error error ↔ config.dropAbsentFpu.firstError = some error := by
  cases found : config.dropAbsentFpu.firstError <;> simp [validate, found]

theorem validate_eq_ok_iff :
    config.validate = .ok valid ↔
      config.dropAbsentFpu.firstError = none ∧ config.dropAbsentFpu = valid := by
  cases found : config.dropAbsentFpu.firstError <;> simp [validate, found]

theorem validate_ofModel (model : Model) : (ofModel model).validate = .ok (ofModel model) := by
  cases model <;> rfl

end Config

/-! ### Building -/

theorem Core.build_dropAbsentFpu (config : Config) :
    Core.build config.dropAbsentFpu = (Core.build config).withConfig config.dropAbsentFpu := by
  simp only [build, withConfig, Config.dropAbsentFpu, Option.filter_filter, Bool.and_self]

def Cpu.withConfig (cpu : Cpu) (config : Config) : Cpu :=
  { cpu with core := cpu.core.withConfig config }

def Outcome.withConfig {β : Type} (outcome : Outcome β) (config : Config) : Outcome β :=
  { outcome with cpu := outcome.cpu.withConfig config }

namespace Cpu

/-- In a setting with the time of the processor only the description is another. -/
theorem SameClock.inSetting {cpu : Cpu} {setting : Setting} (same : cpu.SameClock setting) :
    cpu.inSetting setting = cpu.withConfig setting.config := by
  obtain ⟨clock, origin⟩ := same
  rw [Cpu.inSetting, clock, origin]
  rfl

theorem SameClock.outcome {β : Type} {outcome : Outcome β} {setting : Setting}
    (same : outcome.cpu.SameClock setting) :
    outcome.inSetting setting = outcome.withConfig setting.config :=
  congrArg (fun cpu => { outcome with cpu }) same.inSetting

/-- A processor before its first reset. -/
def blank (config : Config) : Cpu where
  core := .build config
  icache := .ofSize config.icacheSize
  dcache := .ofSize config.dcacheSize
  cycles := 0
  randomOrigin := 0

/-- With a unit of revision zero, a processor is built as without one. -/
theorem build_dropAbsentFpu (config : Config) :
    ∃ setting : Setting, setting.config = config.dropAbsentFpu ∧
      (Cpu.build config).1.InPhase setting ∧ (Cpu.build config).1.SameClock setting ∧
      Cpu.build config.dropAbsentFpu =
        ((Cpu.build config).1.inSetting setting, (Cpu.build config).2) := by
  let start : Setting := ⟨config.dropAbsentFpu, 0, 0⟩
  have agrees : config.Agrees config.dropAbsentFpu := ⟨rfl, rfl, rfl⟩
  have phase : (blank config).InPhase start :=
    ⟨agrees, fun _ => ⟨Nat.le_refl _, Nat.le_refl _, rfl⟩⟩
  -- The first reset starts the counters of both at the same time.
  have pace := phase.reset
  have other : blank config.dropAbsentFpu = (blank config).inSetting start := by
    rw [blank, Core.build_dropAbsentFpu]
    rfl
  have built : Cpu.build config.dropAbsentFpu = ((blank config).inSetting start).reset := by
    rw [← other]
    rfl
  exact ⟨(blank config).resetSetting start, pace.described, pace.phase, pace.together ⟨rfl, rfl⟩,
    built.trans (reset_inSetting agrees)⟩

end Cpu

/-- The processors of two descriptions are alike. They are equal when they are built, but for the
description that each keeps. They stay so, and take the same cycles and notes and make the same
calls, whatever a host does with both, and when they then run on. -/
structure Config.BuildsAlike (config other : Config) : Prop where
  built : Cpu.build other = ((Cpu.build config).1.withConfig other, (Cpu.build config).2)
  session {β : Type} [Bus β] (bus : β) (operations : List Operation) :
    let one := (Cpu.build config).1.session (Watched.start bus) operations
    (Cpu.build other).1.session (Watched.start bus) operations = (one.1, one.2.withConfig other)
  run {β : Type} [Bus β] (bus : β) (operations : List Operation) (budget : Nat) :
    let one := ((Cpu.build config).1.session (Watched.start bus) operations).2
    let another := ((Cpu.build other).1.session (Watched.start bus) operations).2
    another.cpu.run another.bus budget = (one.cpu.run one.bus budget).withConfig other

theorem Config.buildsAlike_dropAbsentFpu (config : Config) :
    config.BuildsAlike config.dropAbsentFpu := by
  obtain ⟨setting, described, phase, clock, built⟩ := Cpu.build_dropAbsentFpu config
  have started : (Cpu.build config.dropAbsentFpu).1 = (Cpu.build config).1.inSetting setting :=
    congrArg Prod.fst built
  constructor
  case built => rw [built, clock.inSetting, described]
  case session =>
    intro β _ bus operations one
    obtain ⟨after, pace, same⟩ := Cpu.session_inSetting phase (Watched.start bus) operations
    rw [started, same, (pace.together clock).outcome, pace.described, described]
  case run =>
    intro β _ bus operations budget one another
    obtain ⟨after, pace, same⟩ := Cpu.session_inSetting phase (Watched.start bus) operations
    obtain ⟨last, onward, sameRun⟩ := Cpu.run_inSetting pace.phase one.bus budget
    have reached : another = one.inSetting after := by
      simp only [another, started, same]
      rfl
    rw [reached]
    refine sameRun.trans ?_
    rw [(onward.together (pace.together clock)).outcome, onward.described, pace.described,
      described]

/-- Validation is exact. It reports an error exactly when the description has the fault, where an
instruction cache comes before a data cache and both before the interrupt input of a unit that is
present. Else it answers with the description that is meant, which differs at most in a unit of
revision zero that is left out, and validates to itself. A processor built from it is the one built
without validation, but for the description it keeps, and does the same in all sessions and runs.
The description of any model validates to itself. -/
theorem Config.validation_exact (config : Config) :
    (∀ error, config.validate = .error error ↔ config.Fault error) ∧
      (∀ valid, config.validate = .ok valid →
        config.Means valid ∧ valid.validate = .ok valid ∧ config.BuildsAlike valid) ∧
      ∀ model, (ofModel model).validate = .ok (ofModel model) := by
  refine ⟨fun error => ?_, fun valid passed => ?_, validate_ofModel⟩
  · rw [validate_eq_error_iff, firstError_dropAbsentFpu_iff]
  · obtain ⟨sound, rfl⟩ := validate_eq_ok_iff.mp passed
    refine ⟨config.means_dropAbsentFpu, ?_, config.buildsAlike_dropAbsentFpu⟩
    rw [validate_eq_ok_iff, dropAbsentFpu_dropAbsentFpu]
    exact ⟨sound, rfl⟩

/-- A unit of revision zero is attached, with an interrupt input that does not exist. -/
def Config.unplugged : Config := { Config.ofModel .r3081 with fpu := some ⟨0, 9⟩ }

/-- The instruction cache has three thousand bytes, and the unit is present. -/
def Config.misfit : Config := { Config.unplugged with icacheSize := 3000, fpu := some ⟨0x0300, 9⟩ }

/-- The input does not count where there is no unit. -/
theorem Config.validation_exact_unplugged :
    unplugged.validate = .ok { unplugged with fpu := none } ∧
      unplugged.BuildsAlike { unplugged with fpu := none } ∧
      misfit.validate = .error (.cacheSize .instruction 3000) := by
  have passed : unplugged.validate = .ok { unplugged with fpu := none } := rfl
  obtain ⟨-, valid, -⟩ := validation_exact unplugged
  obtain ⟨refused, -⟩ := validation_exact misfit
  obtain ⟨-, -, alike⟩ := valid _ passed
  exact ⟨passed, alike, (refused _).mpr (.instructionCache (by decide))⟩

end R3000

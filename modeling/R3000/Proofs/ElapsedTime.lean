import R3000.BusTrace
import R3000.Proofs.FloatInterrupt
import R3000.Proofs.Lockstep

/-!
# Elapsed time

A host that saves the state of a processor and restores it later, or replays a session on another
processor, finds the same state at another time. The time shows in the random counter only. So where
there is no counter, or it stands at the same slot, nothing that happens from then on is different:
neither the cycles that anything takes, nor a call on the memory, nor an event.
-/
namespace R3000

namespace Cpu

/-- The processor without the time that has passed and the time of its last reset. -/
def forgetTime (cpu : Cpu) : Cpu := { cpu with cycles := 0, randomOrigin := 0 }

/-- The time that has passed since the last reset makes no difference between the two: there is no
counter, or it was started in the past in both and stands at the same slot, as it does every
fifty-six cycles. -/
inductive SameTime (first second : Cpu) : Prop where
  | untimed (fixed : first.core.mmu = .fixed)
  | counted (started : first.randomOrigin ≤ first.cycles)
      (started' : second.randomOrigin ≤ second.cycles)
      (slot : (first.cycles - first.randomOrigin) % 56 =
        (second.cycles - second.randomOrigin) % 56)

/-- Nothing tells the two apart but the time. -/
structure Twins (first second : Cpu) : Prop where
  state : first.forgetTime = second.forgetTime
  time : first.SameTime second

section

variable {first second : Cpu}

/-- A twin is the same processor in a setting that is in phase. -/
theorem Twins.inSetting (twins : first.Twins second) :
    ∃ setting : Setting, setting.config = first.core.config ∧ first.InPhase setting ∧
      second = first.inSetting setting := by
  refine ⟨⟨first.core.config, second.cycles, second.randomOrigin⟩, rfl, ?_, ?_⟩
  · refine ⟨⟨rfl, rfl, rfl⟩, fun buffered => ?_⟩
    cases twins.time with
    | untimed fixed =>
      rw [fixed] at buffered
      cases buffered
    | counted started started' slot => exact ⟨started, started', slot⟩
  · calc
      second = { second.forgetTime with
          cycles := second.cycles, randomOrigin := second.randomOrigin } := rfl
      _ = { first.forgetTime with
          cycles := second.cycles, randomOrigin := second.randomOrigin } := by rw [twins.state]
      _ = first.inSetting ⟨first.core.config, second.cycles, second.randomOrigin⟩ := rfl

theorem InPhase.twins {cpu : Cpu} {setting : Setting} (phase : cpu.InPhase setting)
    (described : setting.config = cpu.core.config) : cpu.Twins (cpu.inSetting setting) where
  state := by
    simp only [forgetTime, Cpu.inSetting, Core.withConfig, described]
  time := by
    cases hardware : cpu.core.mmu with
    | fixed => exact .untimed hardware
    | tlb buffer | bypass buffer =>
      obtain ⟨started, started', slot⟩ := phase.counts (by rw [hardware]; rfl)
      exact .counted started started' slot

end

/-- Two outcomes from one memory tell a host the same, but for the time, and leave twins. -/
structure SameButTime {β : Type} (one other : Outcome (Watched β)) : Prop where
  notes : other.notes = one.notes
  calls : other.bus.history = one.bus.history
  memory : other.bus.memory = one.bus.memory
  twins : one.cpu.Twins other.cpu
  /-- All registers of system control can be read without a difference, the counter too. -/
  registers : ∀ number, other.cpu.systemReg number = one.cpu.systemReg number

theorem InPhase.sameButTime {β : Type} {outcome : Outcome (Watched β)} {setting : Setting}
    (phase : outcome.cpu.InPhase setting) (described : setting.config = outcome.cpu.core.config) :
    SameButTime outcome (outcome.inSetting setting) where
  notes := rfl
  calls := rfl
  memory := rfl
  twins := phase.twins described
  registers := phase.systemReg

/-- Elapsed time is observable only through the random counter. Two processors are equal but for the
time that has passed and the time of the last reset, and they have no counter, or it stands at the
same slot. Whatever a host does with both from then on, resets included, each operation takes the
same cycles, all take the same notes and make the same calls on equal memories with the same
answers, and the processors are again equal but for the time, with counters at the same slot. The
same holds when they run on for any budget of cycles. -/
theorem session_ignores_time {β : Type} [Bus β] {first second : Cpu} (twins : first.Twins second)
    (bus : β) (operations : List Operation) :
    let one := first.session (Watched.start bus) operations
    let other := second.session (Watched.start bus) operations
    other.1 = one.1 ∧ SameButTime one.2 other.2 ∧
      ∀ budget,
        let ran := one.2.cpu.run one.2.bus budget
        let otherRan := other.2.cpu.run other.2.bus budget
        other.2.cpu.elapsed otherRan = one.2.cpu.elapsed ran ∧ SameButTime ran otherRan := by
  obtain ⟨setting, described, phase, rfl⟩ := twins.inSetting
  obtain ⟨after, pace, same⟩ := session_inSetting phase (Watched.start bus) operations
  intro one other
  have described' : after.config = one.2.cpu.core.config := by
    rw [pace.described, described]
    exact (first.config_session _ _).symm
  have ended : other = (one.1, one.2.inSetting after) := same
  rw [ended]
  refine ⟨rfl, pace.phase.sameButTime described', ?_⟩
  -- They run on in settings that are still in phase.
  intro budget ran otherRan
  obtain ⟨later, onward, sameRun⟩ := run_inSetting pace.phase one.2.bus budget
  have describedLater : later.config = ran.cpu.core.config := by
    rw [onward.described, described']
    exact (one.2.cpu.config_runFrom _ _ _).symm
  have endedRun : otherRan = ran.inSetting later := sameRun
  rw [endedRun]
  exact ⟨onward.elapsed, onward.phase.sameButTime describedLater⟩

def early : Cpu := (Cpu.build (.ofModel .r3000A)).1

/-- The same at another time. The counter has gone round once since the last reset. -/
def late : Cpu := { early with cycles := 156, randomOrigin := 100 }

/-- A random write, a move from the register of the counter, a division, and a reset. -/
def timedOperations : List Operation :=
  [.execute 0x42000006, .execute 0x40080800, .execute 0x0000001a, .reset]

/-- Both write the same slot and find its number, and take as long for the division. -/
theorem session_ignores_time_late :
    let one := early.session (Watched.start noMemory) timedOperations
    let other := late.session (Watched.start noMemory) timedOperations
    other.1 = [0, 0, 34, 0] ∧ SameButTime one.2 other.2 ∧
      one.2.cpu.gpr 8 = 63 <<< 8 ∧ one.2.cpu.cycles = 34 ∧ other.2.cpu.cycles = 190 := by
  have twins : early.Twins late := ⟨rfl, .counted (by decide) (by decide) (by decide)⟩
  obtain ⟨costs, same, -⟩ := session_ignores_time twins noMemory timedOperations
  exact ⟨costs.trans (by decide +kernel), same, by decide +kernel, by decide +kernel,
    by decide +kernel⟩

end Cpu

end R3000

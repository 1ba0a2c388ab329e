import Mathlib.Data.List.Chain
import R3000.Proofs.Regime

/-!
# Reports of the mode

A host that records the events of a processor learns of every change between kernel and user mode.
Four things change the mode: a handler is entered, the mode stack is popped, the status register is
written, or the processor is reset. Each decides in its own way whether there is something to
report, and all of them agree on it: a report is made when the mode is another one than before.
-/
namespace R3000

/-- The modes that were reported in the course of a history, in the order of the reports. -/
def reported : List Deed → List Bool
  | [] => []
  | deed :: past => reported past ++ modeReports deed.notes

/-- The deed begins and ends between two instructions, and the status register is not written under
another number than its own. -/
def Deed.Orderly (deed : Deed) : Prop :=
  deed.operation.keepsBoundary = true ∧ deed.operation.namesStatus = true

theorem modeSwitch_self (status : Word) : modeSwitch status status = [] := if_pos rfl

/-- Unless an exception is being taken, all reports are right. -/
theorem Regime.After.reports_eq {before after : Regime} {deed : Deed} {reports : List Bool}
    (changed : before.After false deed after reports)
    (names : deed.operation.namesStatus = true) :
    reports = modeSwitch before.status after.status := by
  cases changed with
  | spared => exact (modeSwitch_self _).symm
  | entered pending => rfl
  | drove wired driver others => exact (modeSwitch_self _).symm
  | wroteStatus writes value => rfl
  | wroteAlias writes beyond same value => exact absurd (Deed.eq_of_writes names writes same) beyond
  | wroteCause writes same value => exact (modeSwitch_self _).symm
  | restored executed => rfl
  | reset asked booting =>
    -- Both values that a reset may leave are in kernel mode, so they are reported alike.
    have alike : Status.userMode (Status.bev ||| Status.ts) = Status.userMode Status.bev := by
      decide
    rcases booting with rfl | rfl
    · rfl
    · simp only [modeSwitch, alike]

/-- Reports that alternate from a mode on and end in the present one still do after a change. -/
theorem isChain_append_modeSwitch {first : Bool} {reports : List Bool} {before after : Word}
    (chain : (first :: reports).IsChain (· ≠ ·))
    (last : reports.getLastD first = Status.userMode before) :
    (first :: (reports ++ modeSwitch before after)).IsChain (· ≠ ·) ∧
      (reports ++ modeSwitch before after).getLastD first = Status.userMode after := by
  simp only [modeSwitch]
  split
  next same =>
    rw [List.append_nil]
    exact ⟨chain, last.trans same⟩
  next changed =>
    constructor
    · rw [← List.cons_append, List.isChain_append]
      refine ⟨chain, .singleton _, ?_⟩
      intro earlier latest later reporting
      rw [List.getLast?_cons, ← List.getLastD_eq_getLast?, last] at latest
      cases latest
      cases reporting
      exact changed
    · rw [List.getLastD_eq_getLast?, List.getLast?_concat]
      rfl

namespace Cpu

/-- Between two instructions, an operation reports the mode when it changes it. -/
theorem modeReports_operate {β : Type} [Bus β] {cpu : Cpu} (bus : β) (operation : Operation)
    (between : cpu.core.sequencer.AtBoundary) (names : operation.namesStatus = true) :
    modeReports (cpu.operate bus operation).notes =
      modeSwitch cpu.core.system.status (cpu.operate bus operation).cpu.core.system.status := by
  have running : (cpu.core.sequencer.state == .exception) = false := by
    rcases between with state | state <;> rw [state] <;> rfl
  have changed := cpu.operate_after bus operation
  rw [running] at changed
  exact changed.reports_eq names

/-- Every operation of a run begins between two instructions. -/
theorem Recorded.atBoundary {start cpu : Cpu} {past : List Deed} (run : start.Recorded past cpu)
    (between : start.core.sequencer.AtBoundary) (orderly : ∀ deed ∈ past, deed.Orderly) :
    cpu.core.sequencer.AtBoundary := by
  have kept : Leads (·.keepsBoundary = true) start cpu :=
    run.leads fun deed member => (orderly deed member).1
  exact kept.atBoundary between

theorem Recorded.replays {start cpu : Cpu} {past : List Deed} (run : start.Recorded past cpu)
    (between : start.core.sequencer.AtBoundary) (orderly : ∀ deed ∈ past, deed.Orderly) :
    (start.core.userMode :: reported past).IsChain (· ≠ ·) ∧
      (reported past).getLastD start.core.userMode = cpu.core.userMode := by
  -- By induction on the run: what the last operation reports fits what was reported before.
  induction run with
  | start => exact ⟨.singleton _, rfl⟩
  | @operate β _ past cpu bus operation before ih =>
    obtain ⟨-, names⟩ := orderly _ List.mem_cons_self
    have earlier (deed : Deed) (member : deed ∈ past) : deed.Orderly :=
      orderly deed (List.mem_cons_of_mem _ member)
    obtain ⟨chain, last⟩ := ih earlier
    have told := modeReports_operate bus operation
      (before.atBoundary between earlier) names
    simp only [reported, deed, told]
    exact isChain_append_modeSwitch chain last

/-- The recorded events replay the mode. On a run of any length between instructions, on which the
host writes the status register under its own number only, every operation reports the mode exactly
when it is another one than before, once, and as it is then. So the reports alternate, and the last
of them, or the mode at the start if there is none, is the present mode. -/
theorem modeReports_replay {start cpu : Cpu} {past : List Deed} (run : start.Recorded past cpu)
    (between : start.core.sequencer.AtBoundary) (orderly : ∀ deed ∈ past, deed.Orderly) :
    (start.core.userMode :: reported past).IsChain (· ≠ ·) ∧
      (reported past).getLastD start.core.userMode = cpu.core.userMode ∧
        ∀ {β : Type} [Bus β] (bus : β) (operation : Operation), operation.keepsBoundary = true →
          operation.namesStatus = true →
            let after := cpu.operate bus operation
            modeReports after.notes =
              if cpu.core.userMode = after.cpu.core.userMode then []
              else [after.cpu.core.userMode] := by
  obtain ⟨chain, last⟩ := run.replays between orderly
  refine ⟨chain, last, ?_⟩
  intro β _ bus operation keeps names after
  exact modeReports_operate bus operation (run.atBoundary between orderly) names

def beforeExcursion : Cpu := (Cpu.build (.ofModel .r3000A)).1

/-- The processor is put in user mode. -/
def outside : Cpu := (beforeExcursion.operate noMemory (.setSystemReg 12 0x2)).cpu

/-- In user mode it may not fetch from the boot vector, so a step leads back to kernel mode. -/
def excursion : List Deed :=
  [outside.deed noMemory .step, beforeExcursion.deed noMemory (.setSystemReg 12 0x2)]

/-- Both ways are reported. -/
theorem modeReports_replay_excursion :
    reported excursion = [true, false] ∧
      (beforeExcursion.core.userMode :: reported excursion).IsChain (· ≠ ·) ∧
        (outside.operate noMemory .step).cpu.core.userMode = false := by
  have run : beforeExcursion.Recorded excursion (outside.operate noMemory .step).cpu :=
    .operate noMemory .step (.operate noMemory (.setSystemReg 12 0x2) .start)
  have orderly : ∀ deed ∈ excursion, deed.Orderly := by
    rintro deed (_ | ⟨_, _ | ⟨_, ⟨⟩⟩⟩) <;> exact ⟨rfl, rfl⟩
  have reports : reported excursion = [true, false] := by decide +kernel
  obtain ⟨chain, last, -⟩ := modeReports_replay run (.inl rfl) orderly
  rw [reports] at last
  exact ⟨reports, chain, last.symm⟩

end Cpu

end R3000

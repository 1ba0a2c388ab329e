import R3000.Proofs.Regime

/-!
# Interrupt inputs

The cause register shows the level of each interrupt input. It is written as a whole when a handler
is entered, when a program or the host writes it, and when another input is driven, and each of
these takes care of the inputs by a mask of its own. So no edge is lost and none is made up: an
input that no floating point unit drives is seen at the level at which the host has driven it last.
-/
namespace R3000

/-- The level at which a host has driven an input last, as a history tells. A reset releases all
inputs. -/
def lastLevel (line : Nat) : List Deed → Bool
  | [] => false
  | deed :: past =>
    match deed.operation with
    | .reset => false
    | .setInput other level => if other = line then level else lastLevel line past
    | _ => lastLevel line past

namespace Regime.After

variable {before after : Regime} {taking : Bool} {deed : Deed} {reports : List Bool}

/-- No deed moves the floating point unit to another input. -/
theorem unitLine (changed : before.After taking deed after reports) :
    after.unitLine = before.unitLine := by
  cases changed <;> rfl

/-- An input stays as it is unless it is driven, or all of them are reset. -/
theorem keepsInput {line : Nat} (changed : before.After taking deed after reports)
    (wired : line < 6) (foreign : before.unitLine ≠ some line)
    (spared : ∀ level, deed.operation ≠ .setInput line level) (running : deed.operation ≠ .reset) :
    hasAny after.cause (Cause.inputBit line) = hasAny before.cause (Cause.inputBit line) := by
  cases changed with
  | spared => rfl
  | entered pending =>
    have within : ∀ line < 6,
        (0x0000ff00 : Word) &&& Cause.inputBit line = Cause.inputBit line := by
      decide
    exact hasAny_of_subset pending (within line wired)
  | @drove other cause known driver others =>
    -- Neither the unit nor the host has driven this input, so it was another one.
    have apart : line ≠ other := by
      rintro rfl
      exact driver.elim foreign fun ⟨level, asked⟩ => spared level asked
    exact Core.hasAny_inputBit_of_ne wired known apart others
  | wroteStatus writes value => rfl
  | wroteAlias writes beyond same value => rfl
  | wroteCause writes same value =>
    exact hasAny_of_subset (replaceBits_inside _ _ _) (Core.inputBit_within line wired)
  | restored executed => rfl
  | reset asked booting => exact absurd asked running

/-- The two software interrupts stay as they are unless the cause is written or reset. -/
theorem keepsSoftware (changed : before.After taking deed after reports)
    (spared : ∀ number, deed.Writes number → number % 32 ≠ 13) (running : deed.operation ≠ .reset) :
    after.cause &&& Cause.isw = before.cause &&& Cause.isw := by
  cases changed with
  | spared => rfl
  | entered pending => exact and_of_subset pending (by decide)
  | @drove line cause wired driver others =>
    have within : ∀ line < 6, ~~~Cause.inputBit line &&& Cause.isw = Cause.isw := by decide
    exact and_of_subset others (within line wired)
  | wroteStatus writes value => rfl
  | wroteAlias writes beyond same value => rfl
  | wroteCause writes same value => exact absurd same (spared _ writes)
  | restored executed => rfl
  | reset asked booting => exact absurd asked running

end Regime.After

namespace Cpu

/-- The unit drives the same input all along a run. -/
theorem Recorded.unitLine {start cpu : Cpu} {past : List Deed} (run : start.Recorded past cpu) :
    cpu.core.regime.unitLine = start.core.regime.unitLine := by
  induction run with
  | start => rfl
  | operate bus operation before ih => exact (operate_after _ bus operation).unitLine.trans ih

theorem asserted_operate {β : Type} [Bus β] {cpu : Cpu} (bus : β) (operation : Operation)
    {line : Nat} {past : List Deed} (wired : line < 6)
    (foreign : cpu.core.regime.unitLine ≠ some line)
    (before : cpu.core.asserted line = lastLevel line past) :
    (cpu.operate bus operation).cpu.core.asserted line =
      lastLevel line (cpu.deed bus operation :: past) := by
  have changed := cpu.operate_after bus operation
  cases operation with
  | reset =>
    have cleared : (cpu.operate bus .reset).cpu.core.system.cause = 0 := cause_resetSystem _
    exact Core.asserted_of_clear cleared line
  | setInput other level =>
    simp only [lastLevel, deed]
    split
    next same =>
      subst same
      exact Core.asserted_setInput _ wired level
    next apart =>
      exact (Core.asserted_setInput_of_ne _ wired (Ne.symm apart) level).trans before
  | _ =>
    -- No other operation drives an input.
    exact (changed.keepsInput wired foreign (fun _ => Operation.noConfusion)
      Operation.noConfusion).trans before

/-- On a run from a processor as it is built, an input is seen as it was driven last. -/
theorem Recorded.asserted {config : Config} {cpu : Cpu} {past : List Deed}
    (run : (Cpu.build config).1.Recorded past cpu) {line : Nat} (wired : line < 6)
    (foreign : (Cpu.build config).1.core.regime.unitLine ≠ some line) :
    cpu.core.asserted line = lastLevel line past := by
  -- By induction on the run; the unit stays on its line, so the input is never the unit's.
  induction run with
  | start =>
    have quiet : (Cpu.build config).1.core.system.cause = 0 := cause_resetSystem _
    exact Core.asserted_of_clear quiet line
  | operate bus operation before ih =>
    have elsewhere : _ ≠ some line := fun same => foreign (before.unitLine.symm.trans same)
    exact asserted_operate bus operation wired elsewhere ih

/-- Interrupt inputs are never lost or forged. On a run of any length, of any operations, of a
processor as it was built, an input that no floating point unit drives is seen at the level at which
the host has driven it last, since the last reset if there was one. A line that does not exist can
be driven without any effect. Only a reset and a write to the cause change a software interrupt. -/
theorem inputs_neither_lost_nor_forged {config : Config} {cpu : Cpu} {past : List Deed}
    (run : (Cpu.build config).1.Recorded past cpu) :
    (∀ line < 6, (Cpu.build config).1.core.fpu.map (·.irq) ≠ some line →
        hasAny cpu.core.system.cause (0x400 <<< line) = lastLevel line past) ∧
      (∀ line level, 6 ≤ line → (cpu.setInput line level).1 = cpu) ∧
        ∀ {β : Type} [Bus β] (bus : β) (operation : Operation),
          (cpu.operate bus operation).cpu.core.system.cause &&& 0x300 ≠
              cpu.core.system.cause &&& 0x300 →
            operation = .reset ∨
              ∃ number, (cpu.deed bus operation).Writes number ∧ number % 32 = 13 := by
  refine ⟨fun line wired foreign => run.asserted wired foreign, ?_, ?_⟩
  · intro line level beyond
    simp only [setInput, Core.setInput, if_pos beyond]
    rfl
  · intro β _ bus operation different
    by_cases asked : operation = .reset
    · exact .inl asked
    · right
      apply Classical.byContradiction
      intro unwritten
      have spared (number : Nat) (writes : (cpu.deed bus operation).Writes number) :
          number % 32 ≠ 13 := fun same => unwritten ⟨number, writes, same⟩
      exact different ((operate_after cpu bus operation).keepsSoftware spared asked)

def notDriven : Cpu := (Cpu.build (.ofModel .r3081)).1

/-- An input is driven, and then the cause is cleared. -/
def driven : Cpu := (notDriven.operate noMemory (.setInput 2 true)).cpu

def drivenAndCleared : Cpu := (driven.operate noMemory (.setSystemReg 13 0)).cpu

/-- The input is still seen asserted. -/
theorem inputs_neither_lost_nor_forged_cleared :
    hasAny drivenAndCleared.core.system.cause 0x1000 = true ∧
      (drivenAndCleared.setInput 6 true).1 = drivenAndCleared := by
  have run : notDriven.Recorded [driven.deed noMemory (.setSystemReg 13 0),
      notDriven.deed noMemory (.setInput 2 true)] drivenAndCleared :=
    .operate noMemory (.setSystemReg 13 0) (.operate noMemory (.setInput 2 true) .start)
  obtain ⟨seen, ignored, -⟩ := inputs_neither_lost_nor_forged run
  exact ⟨seen 2 (by decide) (by decide), ignored 6 true (by decide)⟩

end Cpu

end R3000

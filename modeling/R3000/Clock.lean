import R3000.Cpu

/-!
# The clock

Every step takes at least one cycle. The first cycle is counted before the step
begins; traps and memory accesses add none, and an instruction that retires adds
the cycles it asks for.
-/
namespace R3000.Cpu

variable {β : Type}

@[simp] theorem cycles_trap (cpu : Cpu) (bus : β) (trap : Trap) :
    (cpu.trap bus trap).cpu.cycles = cpu.cycles := rfl

@[simp] theorem cycles_advance (outcome : Outcome β) :
    (advance outcome).cpu.cycles = outcome.cpu.cycles := rfl

@[simp] theorem cycles_tick (cpu : Cpu) (cycles : Nat) :
    (cpu.tick cycles).cycles = cpu.cycles + cycles := rfl

variable [Bus β]

theorem cycles_writeData (cpu : Cpu) (bus : β) (width : Width) (address : Word)
    (value mask : BitVec width.bits) :
    (cpu.writeData bus width address value mask).2.1.cycles = cpu.cycles := by
  unfold writeData
  split <;> rfl

@[simp] theorem cycles_load (cpu : Cpu) (bus : β) (load : Load) :
    (cpu.load bus load).cpu.cycles = cpu.cycles := by
  unfold Cpu.load
  split
  · rfl
  · split
    · rfl
    · simp only
      split <;> rfl

@[simp] theorem cycles_store (cpu : Cpu) (bus : β) (store : Store) :
    (cpu.store bus store).cpu.cycles = cpu.cycles := by
  unfold Cpu.store
  split
  · rfl
  · split
    · rfl
    next physical core _ =>
      have unchanged := cycles_writeData { cpu with core } bus store.width
        (if store.checked then physical else containingWord physical) store.value store.mask
      simp only
      split <;> simp_all

theorem cycles_execute_le (cpu : Cpu) (bus : β) (word : Word) :
    cpu.cycles ≤ (cpu.execute bus word).cpu.cycles := by
  unfold execute
  split <;> simp

theorem cycles_fetch (cpu : Cpu) (bus : β) : (cpu.fetch bus).2.1.cycles = cpu.cycles := by
  unfold fetch
  simp only
  split
  · rfl
  · split
    · rfl
    · split <;> rfl

theorem cycles_perform_le (cpu : Cpu) (bus : β) :
    cpu.cycles ≤ (cpu.perform bus).cpu.cycles := by
  have fetched := cycles_fetch cpu bus
  unfold perform
  split
  next equal => simp_all
  next fetchedCpu fetchedBus equal =>
    rw [equal] at fetched
    split
    · simp_all
    · rw [← fetched]
      exact cycles_execute_le fetchedCpu fetchedBus _

theorem cycles_lt_step (cpu : Cpu) (bus : β) : cpu.cycles < (cpu.step bus).cpu.cycles := by
  have counted := cycles_perform_le (cpu.tick 1) bus
  simp only [cycles_tick] at counted
  unfold step
  simp only [cycles_advance]
  omega

/-- The cycles that a step takes. -/
def cost (cpu : Cpu) (bus : β) : Nat := (cpu.step bus).cpu.cycles - cpu.cycles

theorem cost_pos (cpu : Cpu) (bus : β) : 0 < cpu.cost bus := by
  have counted := cycles_lt_step cpu bus
  unfold cost
  omega

end R3000.Cpu
